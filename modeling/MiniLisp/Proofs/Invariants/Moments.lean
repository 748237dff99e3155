import MiniLisp.Proofs.Invariants.Rules

/-! The moments of an evaluation: what stands in the store when one of its expressions has its turn.
An evaluation that is interrupted there leaves the store of that moment, and it obeys every
invariant as one that is left alone does.
-/

namespace MiniLisp

/-- What an interruption looks like from outside: an error, as all of them are handed on alike. -/
def interruption : EvalError :=
  .overflow .add

/-- Evaluation that is interrupted: once so many events have been noted down, the next expression is
not evaluated, and the store is left as it is then.
-/
def evaluateUntil (limit : Nat) : Nat → Evaluator
  | 0 => fun _ _ => Eval.abort .tooDeep
  | depth + 1 => fun expr env => ExceptT.mk fun machine =>
      if limit ≤ machine.trace.size then .ok (.error interruption, machine)
      else (Eval.step (evaluateUntil limit depth) expr env).on machine

theorem evaluateUntil_on (limit depth : Nat) (expr : Expr) (env : FrameId) (machine : Machine)
    : (evaluateUntil limit (depth + 1) expr env).on machine
      = if limit ≤ machine.trace.size then .ok (.error interruption, machine)
        else (Eval.step (evaluateUntil limit depth) expr env).on machine :=
  rfl

/-- Every invariant holds at every moment, by induction on the depth. -/
theorem Invariant.obeys_evaluateUntil (I : Invariant) (limit depth : Nat)
    : I.ObeysEvaluator (evaluateUntil limit depth) := by
  induction depth with
  | zero => exact fun _ _ => obeys_tooDeep
  | succ depth ih =>
      intro store env expr frame code machine grows stores
      rw [evaluateUntil_on]
      split
      · exact .failure (refl_of I.Grows _) stores
          (raises_plain rfl rfl (show Primitive.add.name ∈ _ by decide))
      · exact obeys_step ih frame code machine grows stores

end MiniLisp
