import Mathlib.Order.Defs.Unbundled
import MiniLisp.Proofs.Evaluation.Forms

/-! What evaluations do to the store, whatever their outcome.
The rules of evaluation are followed once for any preorder on stores: what the evaluation of the
expressions inside keeps to, the rule keeps to.
-/

namespace MiniLisp.Eval

open MiniLisp.Expr

variable {Result Next : Type} {Step : Store → Store → Prop}

/-- Whenever the evaluation finishes, with a value or an error, it has taken the store by such a
step.
-/
def Moves (Step : Store → Store → Prop) (evaluation : Eval Result) : Prop :=
  ∀ machine outcome after,
    evaluation.on machine = .ok (outcome, after) → Step machine.store after.store

/-- An evaluation that leaves the store alone. -/
def Still (evaluation : Eval Result) : Prop :=
  Moves (fun before after => after = before) evaluation

theorem Moves.mono {Other : Store → Store → Prop} {evaluation : Eval Result}
    (moves : Moves Step evaluation)
    (weaker : ∀ before after, Step before after → Other before after)
    : Moves Other evaluation :=
  fun machine outcome after finished => weaker _ _ (moves machine outcome after finished)

theorem Still.moves [IsPreorder Store Step] {evaluation : Eval Result} (still : Still evaluation)
    : Moves Step evaluation :=
  Moves.mono still fun before _ same => same ▸ refl_of Step before

-----------------------------------------------------------------------------------------
-- The ways to build an evaluation
-----------------------------------------------------------------------------------------

theorem still_pure (result : Result) : Still (pure result : Eval Result) := by
  intro machine outcome after finished
  cases finished
  rfl

theorem still_throw (error : EvalError) : Still (throw error : Eval Result) := by
  intro machine outcome after finished
  cases finished
  rfl

theorem still_ofOutcome (outcome : Except EvalError Result) : Still (ofOutcome outcome) := by
  intro machine other after finished
  cases finished
  rfl

theorem still_emit (event : Event) : Still (emit event) := by
  intro machine outcome after finished
  cases finished
  rfl

theorem moves_abort (reason : Abort) : Moves Step (abort reason : Eval Result) := by
  intro machine outcome after finished
  cases finished

theorem still_checkArity (expected : Arity) (got : Nat) (name : String)
    : Still (checkArity expected got name) := by
  unfold checkArity
  split
  · exact still_pure ()
  · exact still_throw _

theorem still_fetch (env : FrameId) (name : String) : Still (fetch env name) := by
  intro machine outcome after finished
  rw [on_fetch] at finished
  cases finished
  rfl

theorem moves_changeStore {change : Store → Result × Store}
    (step : ∀ store, Step store (change store).2)
    : Moves Step (changeStore change) := by
  intro machine outcome after finished
  cases finished
  exact step machine.store

/-- A sequence takes the steps of its parts, by transitivity. -/
theorem Moves.bind [IsPreorder Store Step] {first : Eval Result} {next : Result → Eval Next}
    (head : Moves Step first) (tail : ∀ result, Moves Step (next result))
    : Moves Step (first >>= next) := by
  intro machine outcome after finished
  rw [on_bind] at finished
  split at finished
  · next result middle done =>
    exact trans_of Step (head machine _ middle done) (tail result middle outcome after finished)
  · next error middle done =>
    obtain ⟨rfl, rfl⟩ := Prod.mk.inj (Except.ok.inj finished)
    exact head machine _ middle done
  · cases finished

theorem Moves.noteReturn {evaluation : Eval Value} (moves : Moves Step evaluation)
    : Moves Step (noteReturn evaluation) := by
  intro machine outcome after finished
  rw [on_noteReturn] at finished
  split at finished
  · next result middle done =>
    obtain ⟨rfl, rfl⟩ := Prod.mk.inj (Except.ok.inj finished)
    exact moves machine result middle done
  · cases finished

-----------------------------------------------------------------------------------------
-- The rules of evaluation
-----------------------------------------------------------------------------------------

section Rules

variable [IsPreorder Store Step] {evaluate : Evaluator} {env : FrameId}

theorem moves_each {exprs : List Expr} (inside : ∀ expr ∈ exprs, Moves Step (evaluate expr env))
    : Moves Step (each evaluate env exprs) := by
  induction exprs with
  | nil => exact (still_pure []).moves
  | cons expr rest ih =>
      rw [List.forall_mem_cons] at inside
      exact inside.1.bind fun _ => (ih inside.2).bind fun _ => (still_pure _).moves

/-- Bindings of a `let` take the steps of their expressions and those of binding names in the new
frame.
-/
theorem moves_bindEach {frame : FrameId}
    (binds : ∀ (store : Store) name value, Step store (store.bind frame name value))
    {bounds : List (String × Expr)}
    (inside : ∀ bound ∈ bounds, Moves Step (evaluate bound.2 env))
    : Moves Step (bindEach evaluate env frame (bindings bounds)) := by
  induction bounds with
  | nil => exact (still_pure ()).moves
  | cons bound rest ih =>
      rw [List.forall_mem_cons] at inside
      rw [bindEach_cons]
      exact inside.1.bind fun value =>
        (moves_changeStore fun store => binds store bound.1 value).bind fun _ => ih inside.2

/-- Making a closure counts it and does nothing else to the store. -/
theorem moves_close (made : ∀ store : Store, ∀ count, Step store { store with closures := count })
    (names : List String) (body : Expr)
    : Moves Step (close env names body) :=
  (moves_changeStore fun store => made store _).bind fun _ => (still_pure _).moves

theorem moves_callPrimitive (primitive : Primitive) (args : List Value)
    : Moves Step (callPrimitive primitive args) := by
  refine (still_checkArity _ _ _).moves.bind fun _ => (still_emit _).moves.bind fun _ => ?_
  split
  · exact (still_emit _).moves.bind fun _ => (still_ofOutcome _).moves
  · exact moves_abort _

/-- A call takes the steps that entering closures takes. -/
theorem moves_apply
    (enters
      : ∀ outer entries body,
          Moves Step
            (changeStore (·.spawnWith outer entries) >>= fun frame => evaluate body frame))
    (callee : Value) (args : List Value)
    : Moves Step (apply evaluate callee args) := by
  cases callee with
  | primitive primitive => exact moves_callPrimitive primitive args
  | closure closure =>
      refine (still_emit _).moves.bind fun _ => (still_checkArity _ _ _).moves.bind fun _ => ?_
      rw [noteReturn_changeStore]
      exact (enters closure.env (closure.parameters.zip args) closure.body).noteReturn
  | integer _ | bool _ | unspecified => exact (still_throw _).moves

theorem moves_evalApplication {items : List Expr}
    (inside : ∀ item ∈ items, Moves Step (evaluate item env))
    (calls : ∀ callee args, Moves Step (apply evaluate callee args))
    : Moves Step (evalApplication evaluate items env) := by
  refine (moves_each inside).bind fun values => ?_
  split
  · exact calls _ _
  · exact moves_abort _

end Rules

end MiniLisp.Eval
