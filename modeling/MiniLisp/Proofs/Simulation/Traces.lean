import MiniLisp.Proofs.Simulation.Congruence
import MiniLisp.Proofs.Simulation.Session

/-! The trace is written and never read.
Runs that start from the same store end with the same outcome and the same store, whatever has been
noted down before and whatever the texts are that the forms come from.
-/

namespace MiniLisp

-----------------------------------------------------------------------------------------
-- What is alike up to equality is equal
-----------------------------------------------------------------------------------------

theorem Value.Alike.eq {value value' : Value} (alike : Value.Alike Eq value value')
    : value = value' := by
  cases alike with
  | closure same => rw [same]
  | integer _ | bool _ | primitive _ | unspecified => rfl

theorem EvalError.Alike.eq {error error' : EvalError} (alike : EvalError.Alike Eq Eq error error')
    : error = error' := by
  cases alike with
  | closureArity same => rw [same]
  | notAProcedure found => rw [found.eq]
  | notAnInteger found => rw [found.eq]
  | malformed same => rw [same]
  | undefinedName _ | arityMismatch _ | emptyForm | overflow _ => rfl

namespace SameStore

open Eval Session

/-- The correspondence of runs that have the same store. -/
def simulation : Simulation where
  World := Unit
  Extends _ _ := True
  Mode := Unit
  frames _ _ := Eq
  closures _ := Eq
  stores _ := Eq
  names _ := Eq
  code _ := Eq
  procedures _ parameters body parameters' body' := (parameters, body) = (parameters', body')
  fillings _ := Eq
  malformed := Eq
  firstMayStop := False
  secondMayStop := False
  preorder := { refl := fun _ => trivial, trans := fun _ _ _ _ _ => trivial }
  frames_mono _ := id
  closures_mono _ := id
  fillings_mono _ := id
  same := by
    rintro _ _ _ _ _ _ _ _ rfl rfl
    rfl
  code_of_closures := by
    rintro _ _ _ rfl
    exact ⟨(), rfl, rfl⟩
  procedures_length procedures := congrArg (·.1.length) procedures
  lookup := by
    rintro _ _ store _ env _ name _ rfl rfl rfl
    refine ⟨?_, fun _ => rfl⟩
    cases store.lookup? env name with
    | none => exact .none
    | some value => exact .some (Value.alike_self fun _ _ => rfl)
  bind := by
    rintro _ _ _ _ _ _ _ _ _ _ rfl rfl rfl together
    rw [together.eq]
  make := by
    rintro _ _ _ _ _ _ _ _ _ _ rfl rfl ⟨⟩
    exact ⟨(), trivial, rfl, rfl⟩
  spawn := by
    rintro _ _ _ _ _ _ _ _ _ _ rfl rfl ⟨⟩
    exact ⟨(), trivial, rfl, rfl⟩
  fill := by
    rintro _ _ _ _ _ _ _ _ _ _ _ _ _ rfl ⟨⟩ together
    obtain rfl := together.eq
    exact ⟨(), trivial, rfl, rfl⟩
  filled := by
    rintro _ _ _ _ _ ⟨⟩
    exact ⟨(), rfl, rfl⟩

theorem relatedEvaluators_evaluate (depth : Nat)
    : simulation.RelatedEvaluators (evaluate depth) (evaluate depth) :=
  @Simulation.relatedEvaluators_of_eq simulation id (fun _ _ => rfl) (fun _ _ => rfl)
    (fun _ _ _ => rfl) (fun _ => rfl) depth

variable {depth : Nat} {env : FrameId} {machine after other : Machine}

/-- An evaluation finishes in the same way on every machine with the same store. -/
theorem evaluate_again {expr : Expr} {outcome : Except EvalError Value}
    (finished : (evaluate depth expr env).on machine = .ok (outcome, after))
    (same : machine.store = other.store)
    : ∃ trace, (evaluate depth expr env).on other = .ok (outcome, ⟨after.store, trace⟩) := by
  have ends := relatedEvaluators_evaluate depth () () env env expr expr rfl rfl machine other same
  rw [finished] at ends
  obtain ⟨right, finished', _, _, stores, outcomes⟩ := ends.exists_right not_false
  obtain ⟨outcome', store', trace⟩ := right
  obtain rfl : after.store = store' := stores
  refine ⟨trace, finished'.trans ?_⟩
  cases outcomes with
  | ok alike => rw [alike.eq]
  | error alike => rw [alike.eq]

/-- So do forms in order, also as the forms of another text. -/
theorem runForms_again {forms : List Expr} {text : String} {outcomes : List Outcome}
    (finished : (runForms depth text env forms).run machine = .ok (outcomes, after))
    (same : machine.store = other.store) (text' : String)
    : ∃ trace,
        (runForms depth text' env forms).run other = .ok (outcomes, ⟨after.store, trace⟩) := by
  have code : List.Forall₂ (simulation.code ()) forms forms :=
    List.forall₂_same.mpr fun _ _ => rfl
  have ends := Simulation.runForms_together (relatedEvaluators_evaluate depth) () (w := ())
    (@rfl _ env) code text text' machine other same
  rw [finished] at ends
  obtain ⟨right, finished', _, _, stores, results⟩ := ends.exists_right not_false
  obtain ⟨outcomes', store', trace⟩ := right
  obtain rfl : after.store = store' := stores
  have equal : outcomes = outcomes' := by
    rw [← List.forall₂_eq_eq_eq]
    refine List.Forall₂.imp (fun outcome outcome' alike => ?_) results
    cases alike with
    | value together => rw [together.eq]
    | failure together => rw [together.eq]
  rw [equal]
  exact ⟨trace, finished'⟩

end SameStore

end MiniLisp
