import MiniLisp.Proofs.Simulation.PrivateFrames
import MiniLisp.Proofs.Simulation.Session

/-! Programs that cannot be told apart by what they show. -/

namespace MiniLisp

/-- What is shown of an outcome: the printed value, or the words for the failure. -/
def Outcome.shown (outcome : Outcome) : Except String String :=
  (outcome.map Value.text).mapError Failure.message

/-- The forms, run in order in a fresh global environment, finish, show this form by form, and leave
this scope.
-/
def Session.Shows (text : String) (program : List Expr) (shown : List (Except String String))
    (scope : String)
    : Prop :=
  ∃ outcomes store,
    Finishes text program outcomes store
    ∧ outcomes.map Outcome.shown = shown
    ∧ store.scopeText (Store.addGlobal ∅).1 = scope

/-- A program shows one thing only. -/
theorem Session.Shows.unique {text : String} {program : List Expr}
    {shown shown' : List (Except String String)} {scope scope' : String}
    (first : Shows text program shown scope) (second : Shows text program shown' scope')
    : shown = shown' ∧ scope = scope' := by
  obtain ⟨outcomes, store, finishes, rfl, rfl⟩ := first
  obtain ⟨outcomes', store', finishes', rfl, rfl⟩ := second
  obtain ⟨rfl, rfl⟩ := finishes.unique finishes'
  exact ⟨rfl, rfl⟩

-----------------------------------------------------------------------------------------
-- Alike means shown alike
-----------------------------------------------------------------------------------------

theorem closure_text_eq {left right : Closure} (same : left.parameters = right.parameters)
    : left.text = right.text := by
  rw [Closure.text, Closure.text, same]

section Shown

variable {closures : Closure → Closure → Prop}
  (named : ∀ left right, closures left right → left.parameters = right.parameters)

include named

theorem Value.Alike.text_eq {value value' : Value} (alike : Value.Alike closures value value')
    : value.text = value'.text := by
  cases alike with
  | closure together =>
      exact closure_text_eq (named _ _ together)
  | integer _ | bool _ | primitive _ | unspecified => rfl

theorem EvalError.Alike.message_eq {error error' : EvalError}
    (alike : EvalError.Alike closures Eq error error')
    : error.message = error'.message := by
  cases alike with
  | closureArity together expected got =>
      exact congrArg (ArityMismatch.message ⟨·, expected, got⟩)
        (closure_text_eq (named _ _ together))
  | notAProcedure together =>
      exact congrArg ("application of non-procedure " ++ ·) (together.text_eq named)
  | notAnInteger together =>
      exact congrArg ("type mismatch: expected an integer, got " ++ ·) (together.text_eq named)
  | malformed same => rw [same]
  | undefinedName _ => rfl
  | arityMismatch _ => rfl
  | emptyForm => rfl
  | overflow _ => rfl

theorem Outcome.Alike.shown_eq {outcome outcome' : Outcome}
    (alike : Outcome.Alike closures Eq outcome outcome')
    : outcome.shown = outcome'.shown := by
  cases alike with
  | value together => exact congrArg Except.ok (together.text_eq named)
  | failure together => exact congrArg Except.error (together.message_eq named)

end Shown

-----------------------------------------------------------------------------------------
-- Programs whose runs match
-----------------------------------------------------------------------------------------

namespace Matching

open Session

variable {code : Expr → Expr → Prop}

/-- What the ends of matching runs show. -/
theorem shown_eq {m : Matching} {outcomes outcomes' : List Outcome}
    (together : List.Forall₂ (Outcome.Alike (m.Closures code) Eq) outcomes outcomes')
    : outcomes.map Outcome.shown = outcomes'.map Outcome.shown := by
  rw [← List.forall₂_eq_eq_eq, List.forall₂_map_left_iff, List.forall₂_map_right_iff]
  exact together.imp fun _ _ alike => alike.shown_eq fun _ _ closures => closures.parameters

/-- Fresh global frames match. -/
theorem stores_fresh (code : Expr → Expr → Prop)
    : ∃ m : Matching,
        m.Stores code (Store.addGlobal ∅).2 (Store.addGlobal ∅).2
        ∧ m.frames (Store.addGlobal ∅).1 (Store.addGlobal ∅).1 := by
  exact ⟨_, (stores_nothing code ∅ ∅).addFrame .none (globals_together _), .inr ⟨rfl, rfl⟩⟩

end Matching

namespace PrivateMatching

open Session

variable {code : Expr → Expr → Prop} {program program' : List Expr}
  (related : List.Forall₂ code program program') {text text' : String}
  {shown : List (Except String String)} {scope : String}

include related

/-- What the first program shows, the second shows, if it has the depth to keep up. -/
theorem shows_of_first
    (agree
      : ∀ depth, ∃ depth',
          (simulation code Eq True False).RelatedEvaluators (evaluate depth) (evaluate depth'))
    (shows : Shows text program shown scope)
    : Shows text' program' shown scope := by
  obtain ⟨outcomes, store, finishes, rfl, rfl⟩ := shows
  obtain ⟨m, stores, frames⟩ := Matching.stores_fresh code
  obtain ⟨w', outcomes', store', finishes', grows, after, results⟩ :=
    Simulation.finishes_of_first (S := simulation code Eq True False) (w := ofMatching m) () frames
      (stores_ofMatching stores) related not_false agree finishes
  exact ⟨outcomes', store', finishes', (Matching.shown_eq results).symm,
    (after.scopeText_eq (grows.matching.frames frames)).symm⟩

/-- What the second program shows, the first shows, if it has the depth to keep up. -/
theorem shows_of_second
    (agree
      : ∀ depth', ∃ depth,
          (simulation code Eq False True).RelatedEvaluators (evaluate depth) (evaluate depth'))
    (shows : Shows text' program' shown scope)
    : Shows text program shown scope := by
  obtain ⟨outcomes, store, finishes, rfl, rfl⟩ := shows
  obtain ⟨m, stores, frames⟩ := Matching.stores_fresh code
  obtain ⟨w', outcomes', store', finishes', grows, after, results⟩ :=
    Simulation.finishes_of_second (S := simulation code Eq False True) (w := ofMatching m) () frames
      (stores_ofMatching stores) related not_false agree finishes
  exact ⟨outcomes', store', finishes', Matching.shown_eq results,
    after.scopeText_eq (grows.matching.frames frames)⟩

end PrivateMatching

end MiniLisp
