import MiniLisp.Proofs.Scope.Reachable
import MiniLisp.Proofs.Simulation.Congruence
import MiniLisp.Proofs.Simulation.Matching
import MiniLisp.Proofs.Simulation.Session

/-! Evaluation sees only what it can reach.
Two stores may differ in all else: where the parts that two frames reach correspond one to one,
evaluations in these frames finish together, with matching results, and leave stores in which the
parts that can be reached correspond again.
-/

namespace MiniLisp

/-- The evaluation of an expression in a frame finishes with this outcome on this machine. -/
def Eval.Finishes (expr : Expr) (env : FrameId) (machine : Machine)
    (outcome : Except EvalError Value) (after : Machine)
    : Prop :=
  ∃ depth, (evaluate depth expr env).on machine = .ok (outcome, after)

/-- An evaluation finishes in one way only. -/
theorem Eval.Finishes.unique {expr : Expr} {env : FrameId} {machine after after' : Machine}
    {outcome outcome' : Except EvalError Value}
    (finishes : Finishes expr env machine outcome after)
    (finishes' : Finishes expr env machine outcome' after')
    : outcome = outcome' ∧ after = after' := by
  obtain ⟨depth, finished⟩ := finishes
  obtain ⟨depth', finished'⟩ := finishes'
  have same : (outcome, after) = (outcome', after') :=
    ended_unique depth depth' finished finished' fun le => within_evaluate le expr env machine _
  exact Prod.mk.inj same

namespace Matching

-----------------------------------------------------------------------------------------
-- One-to-one correspondences of what can be reached
-----------------------------------------------------------------------------------------

/-- The matching is a one-to-one correspondence of all that one frame reaches in its store and all
that another reaches in its own: these two frames belong together, and so do the frames around them,
the names bound in them, and what the names are bound to. Nothing is said of other frames.
-/
structure Joins (m : Matching) (store other : Store) (root root' : FrameId) : Prop
    extends m.Stores Eq store other where
  roots : m.frames root root'
  framesLeft : ∀ left, store.Reaches root left ↔ ∃ right, m.frames left right
  framesRight : ∀ right, other.Reaches root' right ↔ ∃ left, m.frames left right
  closuresLeft : ∀ left, store.ReachesClosure root left ↔ ∃ right, m.closures left right
  closuresRight : ∀ right, other.ReachesClosure root' right ↔ ∃ left, m.closures left right

/-- What of a matching can be reached from a frame of each store. -/
def between (m : Matching) (store other : Store) (root root' : FrameId) : Matching where
  frames left right := m.frames left right ∧ store.Reaches root left ∧ other.Reaches root' right
  closures left right :=
    m.closures left right ∧ store.ReachesClosure root left ∧ other.ReachesClosure root' right

variable {m : Matching} {store other : Store} {root root' : FrameId}

section Following

variable (stores : m.Stores Eq store other) {left right : FrameId} (frames : m.frames left right)
  {name : String} {closure : Closure}

include stores frames

/-- A closure that the first of two matching frames holds. -/
theorem Stores.held_right (held : store.local? left name = some (.closure closure))
    : ∃ closure',
        other.local? right name = some (.closure closure')
        ∧ m.Closures Eq closure closure' := by
  obtain ⟨value, held', alike⟩ := (stores.locals frames name).exists_right held
  cases alike with
  | closure together => exact ⟨_, held', together⟩

/-- A closure that the second of two matching frames holds. -/
theorem Stores.held_left (held : other.local? right name = some (.closure closure))
    : ∃ closure',
        store.local? left name = some (.closure closure')
        ∧ m.Closures Eq closure' closure := by
  obtain ⟨value, held', alike⟩ := (stores.locals frames name).exists_left held
  cases alike with
  | closure together => exact ⟨_, held', together⟩

end Following

section Reaching

variable (stores : m.Stores Eq store other) (roots : m.frames root root')

include stores roots

theorem Stores.reaches_right {left : FrameId} (reached : store.Reaches root left)
    : ∃ right, m.frames left right ∧ other.Reaches root' right := by
  refine reached.exists_related m.frames (fun frames around => ?_) (fun frames held => ?_) roots
  · exact (stores.outer frames).exists_right around
  · obtain ⟨closure', held', together⟩ := stores.held_right frames held
    exact ⟨closure', held', together.env⟩

theorem Stores.reaches_left {right : FrameId} (reached : other.Reaches root' right)
    : ∃ left, m.frames left right ∧ store.Reaches root left := by
  refine reached.exists_related (flip m.frames) (fun frames around => ?_) (fun frames held => ?_)
    roots
  · exact (stores.outer frames).exists_left around
  · obtain ⟨closure', held', together⟩ := stores.held_left frames held
    exact ⟨closure', held', together.env⟩

/-- Whatever two matching frames reach corresponds one to one. -/
theorem Stores.joins : (m.between store other root root').Joins store other root root' where
  present pair := stores.present pair.1
  made pair := stores.made pair.1
  framesUnique :=
    ⟨fun _ _ _ one another => stores.framesUnique.1 one.1 another.1,
      fun _ _ _ one another => stores.framesUnique.2 one.1 another.1⟩
  closuresUnique :=
    ⟨fun _ _ _ one another => stores.closuresUnique.1 one.1 another.1,
      fun _ _ _ one another => stores.closuresUnique.2 one.1 another.1⟩
  outer := by
    intro left right pair
    obtain ⟨frames, reached, reached'⟩ := pair
    have outside := stores.outer frames
    generalize around : store.outer? left = outer at outside ⊢
    generalize around' : other.outer? right = outer' at outside ⊢
    cases outside with
    | none => exact .none
    | some further => exact .some ⟨further, reached.outward around, reached'.outward around'⟩
  locals := by
    intro left right pair name
    obtain ⟨frames, reached, reached'⟩ := pair
    have inside := stores.locals frames name
    generalize held : store.local? left name = value at inside ⊢
    generalize held' : other.local? right name = value' at inside ⊢
    cases inside with
    | none => exact .none
    | some alike =>
        refine .some ?_
        -- Only a closure leads on to more frames; any other value matches as before.
        cases alike with
        | closure together =>
            exact .closure ⟨⟨together.made, ⟨reached, held⟩, ⟨reached', held'⟩⟩,
              ⟨together.env, reached.captured held, reached'.captured held'⟩,
              together.parameters, together.body⟩
        | integer value => exact .integer value
        | bool value => exact .bool value
        | primitive given => exact .primitive given
        | unspecified => exact .unspecified
  roots := ⟨roots, .here, .here⟩
  framesLeft left := by
    refine ⟨fun reached => ?_, fun ⟨_, pair⟩ => pair.2.1⟩
    obtain ⟨right, frames, reached'⟩ := stores.reaches_right roots reached
    exact ⟨right, frames, reached, reached'⟩
  framesRight right := by
    refine ⟨fun reached' => ?_, fun ⟨_, pair⟩ => pair.2.2⟩
    obtain ⟨left, frames, reached⟩ := stores.reaches_left roots reached'
    exact ⟨left, frames, reached, reached'⟩
  closuresLeft left := by
    refine ⟨fun ⟨reached, held⟩ => ?_, fun ⟨_, pair⟩ => pair.2.1⟩
    obtain ⟨right, frames, reached'⟩ := stores.reaches_right roots reached
    obtain ⟨closure', held', together⟩ := stores.held_right frames held
    exact ⟨closure'.id, together.made, ⟨reached, held⟩, ⟨reached', held'⟩⟩
  closuresRight right := by
    refine ⟨fun ⟨reached', held'⟩ => ?_, fun ⟨_, pair⟩ => pair.2.2⟩
    obtain ⟨left, frames, reached⟩ := stores.reaches_left roots reached'
    obtain ⟨closure', held, together⟩ := stores.held_left frames held'
    exact ⟨closure'.id, together.made, ⟨reached, held⟩, ⟨reached', held'⟩⟩

end Reaching

-----------------------------------------------------------------------------------------
-- Evaluation
-----------------------------------------------------------------------------------------

/-- Two finished evaluations agree: the matching extends to one in which the outcomes match, and in
which whatever matching frames reach corresponds one to one.
-/
def Agree (m : Matching) (outcome : Except EvalError Value) (after : Store)
    (outcome' : Except EvalError Value) (after' : Store)
    : Prop :=
  ∃ m' : Matching,
    m.Extends m'
    ∧ Outcome.Alike (m'.Closures Eq) Eq (outcome.mapError .eval) (outcome'.mapError .eval)
    ∧ m'.Stores Eq after after'
    ∧ ∀ root root',
        m'.frames root root' → (m'.between after after' root root').Joins after after' root root'

section Evaluation

variable {machine machine' : Machine}

/-- Evaluation of one expression in matching frames of matching stores, to the same depth. -/
theorem Stores.evaluate_together (stores : m.Stores Eq machine.store machine'.store)
    (roots : m.frames root root') (depth : Nat) (expr : Expr)
    : EndTogether False False
        (fun left right => m.Agree left.1 left.2.store right.1 right.2.store)
        ((evaluate depth expr root).on machine) ((evaluate depth expr root').on machine') := by
  have evaluators
      : (simulation Eq Eq False False).RelatedEvaluators (evaluate depth) (evaluate depth) :=
    @Simulation.relatedEvaluators_of_eq (simulation Eq Eq False False) id (fun _ _ => rfl)
      (fun _ _ => rfl) (fun _ _ _ => ⟨rfl, rfl⟩) (fun _ => rfl) depth
  have ends := evaluators m () root root' expr expr roots rfl machine machine' stores
  refine ends.imp fun left right together => ?_
  obtain ⟨m', grows, after, outcomes⟩ := together
  exact ⟨m', grows, outcomes.alike, after, fun _ _ => after.joins⟩

/-- Evaluation sees only what it can reach. If all that two frames reach corresponds one to one, the
evaluation of an expression in the first finishes just when it does in the second; the outcomes then
match, and so does all that can be reached afterwards.
-/
theorem evaluation_sees_what_it_reaches (joined : m.Joins machine.store machine'.store root root')
    (expr : Expr)
    : ((∃ outcome after, Eval.Finishes expr root machine outcome after)
        ↔ ∃ outcome' after', Eval.Finishes expr root' machine' outcome' after')
      ∧ ∀ outcome after outcome' after',
          Eval.Finishes expr root machine outcome after
          → Eval.Finishes expr root' machine' outcome' after'
          → m.Agree outcome after.store outcome' after'.store := by
  have together (depth : Nat) := joined.evaluate_together joined.roots depth expr
  have follows
      : ∀ outcome after,
          Eval.Finishes expr root machine outcome after
          → ∃ outcome' after',
              Eval.Finishes expr root' machine' outcome' after'
              ∧ m.Agree outcome after.store outcome' after'.store := by
    rintro outcome after ⟨depth, finished⟩
    have ends := together depth
    rw [finished] at ends
    obtain ⟨ended, finished', agree⟩ := ends.exists_right not_false
    exact ⟨ended.1, ended.2, ⟨depth, finished'⟩, agree⟩
  refine ⟨⟨?first, ?second⟩, fun outcome after outcome' after' finishes finishes' => ?agree⟩
  case first =>
    rintro ⟨outcome, after, finishes⟩
    obtain ⟨outcome', after', finishes', _⟩ := follows outcome after finishes
    exact ⟨outcome', after', finishes'⟩
  case second =>
    rintro ⟨outcome', after', depth, finished'⟩
    have ends := together depth
    rw [finished'] at ends
    obtain ⟨ended, finished, _⟩ := ends.exists_left not_false
    exact ⟨ended.1, ended.2, depth, finished⟩
  case agree =>
    -- The two runs may have been given different depths, which the second one does not notice.
    obtain ⟨outcome'', after'', finishes'', agree⟩ := follows outcome after finishes
    obtain ⟨rfl, rfl⟩ := finishes'.unique finishes''
    exact agree

/-- Global frames with one procedure see the same, though the second store holds another global frame
and another procedure, made before: what is defined in the one is defined in the other.
-/
theorem evaluation_sees_own_scope
    : ∃ (m : Matching) (machine machine' : Machine),
        m.Joins machine.store machine'.store 0 1
        ∧ machine.store.local? 0 "f" = some (.closure ⟨0, ["x"], .symbol "x", 0⟩)
        ∧ machine'.store.local? 0 "f" = some (.closure ⟨0, ["y"], .list [], 0⟩)
        ∧ machine'.store.local? 1 "f" = some (.closure ⟨1, ["x"], .symbol "x", 1⟩)
        ∧ ∃ outcome after outcome' after',
            Eval.Finishes (.form .definition [.list [.symbol "g"], .list []]) 0 machine outcome after
            ∧ Eval.Finishes (.form .definition [.list [.symbol "g"], .list []]) 1 machine' outcome'
                after'
            ∧ m.Agree outcome after.store outcome' after'.store := by
  -- What the second store has made before, and the first has not.
  let before : Store :=
    ((Store.addGlobal ∅).2.makeClosure ["y"] (.list []) 0).2.bind 0 "f"
      (.closure ⟨0, ["y"], .list [], 0⟩)
  have globals := @Stores.addFrame _ _ _ _ (stores_nothing Eq ∅ before) ⟨Store.globals, none⟩
    ⟨Store.globals, none⟩ .none (globals_together _)
  have held := globals.makeClosure.bind (.inr ⟨rfl, rfl⟩) "f" (@Value.Alike.closure _
    ⟨0, ["x"], .symbol "x", 0⟩ ⟨1, ["x"], .symbol "x", 1⟩
    ⟨.inr ⟨rfl, rfl⟩, .inr ⟨rfl, rfl⟩, rfl, rfl⟩)
  have joined := held.joins (.inr ⟨rfl, rfl⟩)
  refine ⟨_, ⟨_, #[]⟩, ⟨_, #[]⟩, joined, rfl, rfl, rfl, _, _, _, _, ⟨1, rfl⟩, ⟨1, rfl⟩, ?_⟩
  exact (@evaluation_sees_what_it_reaches _ _ _ ⟨_, #[]⟩ ⟨_, #[]⟩ joined
    (.form .definition [.list [.symbol "g"], .list []])).2 _ _ _ _ ⟨1, rfl⟩ ⟨1, rfl⟩

end Evaluation

end Matching

end MiniLisp
