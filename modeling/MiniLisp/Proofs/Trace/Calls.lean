import MiniLisp.Proofs.Evaluation.Forms
import MiniLisp.Proofs.Primitives.Outcomes
import MiniLisp.Proofs.Trace.Balance

/-! What evaluations note down of calls and returns.
A call that fails still returns, and so do all the calls around it, with one exception: a closure
that refuses its operand count has been called and never returns. That refusal is an error, so it
ends the whole evaluation, and no more than one call is without a return.
-/

namespace MiniLisp

variable {Result Next : Type}

/-- The error is the complaint about an operand count in the name of a closure. -/
def EvalError.RefusesClosure (error : EvalError) : Prop :=
  ∃ (mismatch : ArityMismatch) (closure : Closure),
    error = .arityMismatch mismatch ∧ mismatch.name = closure.text

/-- How many calls of closures an evaluation with this outcome leaves without a return. -/
inductive LeavesOpen : Except EvalError Result → Nat → Prop
  | value {result} : LeavesOpen (.ok result) 0
  | failure {error} (returned : ¬ error.RefusesClosure) : LeavesOpen (.error error) 0
  | refusal {error} (refused : error.RefusesClosure) : LeavesOpen (.error error) 1

/-- An error leaves open what it does, whatever result there is none of. -/
theorem LeavesOpen.error {error : EvalError} {left : Nat}
    (leaves : LeavesOpen (.error error : Except _ Result) left)
    : LeavesOpen (.error error : Except _ Next) left := by
  cases leaves with
  | failure returned => exact .failure returned
  | refusal refused => exact .refusal refused

-----------------------------------------------------------------------------------------
-- Errors in the name of a closure
-----------------------------------------------------------------------------------------

theorem SpecialForm.head?_keyword (form : SpecialForm) : form.keyword.toList.head? ≠ some '#' := by
  cases form <;> simp [keyword]

theorem Primitive.head?_name (primitive : Primitive) : primitive.name.toList.head? ≠ some '#' := by
  cases primitive <;> simp [name]

namespace EvalError

theorem refusesClosure_text (closure : Closure) (expected : Arity) (got : Nat)
    : (arityMismatch ⟨closure.text, expected, got⟩).RefusesClosure :=
  ⟨_, closure, rfl, rfl⟩

/-- The text of a closure begins with a number sign, and no other name in a complaint does. -/
theorem not_refusesClosure_of_head? {name : String} (first : name.toList.head? ≠ some '#')
    (expected : Arity) (got : Nat)
    : ¬ (arityMismatch ⟨name, expected, got⟩).RefusesClosure := by
  rintro ⟨_, closure, ⟨⟩, rfl⟩
  simp [Closure.text] at first

/-- An error that is not about an operand count refuses nothing. -/
theorem not_refusesClosure_of_ne {error : EvalError}
    (other : ∀ mismatch, error ≠ .arityMismatch mismatch)
    : ¬ error.RefusesClosure :=
  fun ⟨mismatch, _, same, _⟩ => other mismatch same

end EvalError

open EvalError

/-- What a primitive complains of is not the number of its operands. -/
theorem Primitive.Computes.leavesOpen {primitive : Primitive} {args : List Value}
    {outcome : Except EvalError Value} (computes : primitive.Computes args outcome)
    : LeavesOpen outcome 0 := by
  cases computes with
  | exact _ _ | less _ _ | equal _ _ => exact .value
  | overflow _ _ => exact .failure (not_refusesClosure_of_ne (by simp))
  | notAnInteger _ _ _ _ => exact .failure (not_refusesClosure_of_ne (by simp))

namespace Eval

open MiniLisp.Expr

/-- Whenever the evaluation finishes, with a value or an error, what it has noted down is in order,
and as many calls of closures are left open as that outcome tells.
-/
def NotesInOrder (evaluation : Eval Result) : Prop :=
  ∀ machine outcome after,
    evaluation.on machine = .ok (outcome, after)
    → ∃ events left,
        after.trace.toList = machine.trace.toList ++ events
        ∧ LeavesOpen outcome left
        ∧ InOrder left events

-----------------------------------------------------------------------------------------
-- The ways to build an evaluation
-----------------------------------------------------------------------------------------

/-- An evaluation that ends where it begins has noted down nothing. -/
theorem notesInOrder_of_trace {evaluation : Eval Result}
    (nothing
      : ∀ machine outcome after,
          evaluation.on machine = .ok (outcome, after)
          → after.trace = machine.trace ∧ LeavesOpen outcome 0)
    : NotesInOrder evaluation := by
  intro machine outcome after finished
  obtain ⟨same, leaves⟩ := nothing machine outcome after finished
  exact ⟨[], 0, by rw [same, List.append_nil], leaves, .nil⟩

theorem notesInOrder_pure (result : Result) : NotesInOrder (pure result : Eval Result) := by
  refine notesInOrder_of_trace fun machine outcome after finished => ?_
  cases finished
  exact ⟨rfl, .value⟩

theorem notesInOrder_throw {error : EvalError} (returned : ¬ error.RefusesClosure)
    : NotesInOrder (throw error : Eval Result) := by
  refine notesInOrder_of_trace fun machine outcome after finished => ?_
  cases finished
  exact ⟨rfl, .failure returned⟩

theorem notesInOrder_abort (reason : Abort) : NotesInOrder (abort reason : Eval Result) := by
  intro machine outcome after finished
  cases finished

theorem notesInOrder_changeStore (change : Store → Result × Store)
    : NotesInOrder (changeStore change) := by
  refine notesInOrder_of_trace fun machine outcome after finished => ?_
  cases finished
  exact ⟨rfl, .value⟩

theorem notesInOrder_fetch (env : FrameId) (name : String) : NotesInOrder (fetch env name) := by
  refine notesInOrder_of_trace fun machine outcome after finished => ?_
  rw [on_fetch] at finished
  cases finished
  refine ⟨rfl, ?_⟩
  cases machine.store.lookup? env name with
  | none => exact .failure (not_refusesClosure_of_ne (by simp))
  | some value => exact .value

/-- An event may be noted down where it is neither part of a call nor of a return. -/
theorem notesInOrder_emit {event : Event} (quiet : InOrder 0 [event])
    : NotesInOrder (emit event) := by
  intro machine outcome after finished
  cases finished
  exact ⟨[event], 0, Array.toList_push, .value, quiet⟩

/-- A sequence notes down what its parts do, one after the other. -/
theorem NotesInOrder.bind {first : Eval Result} {next : Result → Eval Next}
    (head : NotesInOrder first) (tail : ∀ result, NotesInOrder (next result))
    : NotesInOrder (first >>= next) := by
  intro machine outcome after finished
  rw [on_bind] at finished
  split at finished
  · next result middle done =>
    obtain ⟨events, _, added, ⟨⟩, inOrder⟩ := head machine _ middle done
    obtain ⟨more, left, addedMore, leaves, behind⟩ := tail result middle outcome after finished
    refine ⟨events ++ more, left, ?_, leaves, inOrder.prepend behind⟩
    rw [addedMore, added, List.append_assoc]
  · next error middle done =>
    obtain ⟨rfl, rfl⟩ := Prod.mk.inj (Except.ok.inj finished)
    obtain ⟨events, left, added, leaves, inOrder⟩ := head machine _ middle done
    exact ⟨events, left, added, leaves.error, inOrder⟩
  · cases finished

/-- The call of a closure and its return stand around what its body notes down. -/
theorem NotesInOrder.called {evaluation : Eval Value} (inside : NotesInOrder evaluation)
    (closure : Closure) (args : List Value)
    : NotesInOrder (emit (.callClosure closure args) >>= fun _ => noteReturn evaluation) := by
  intro machine outcome after finished
  rw [on_bind, on_emit] at finished
  dsimp only at finished
  rw [on_noteReturn] at finished
  split at finished
  · next result middle done =>
    obtain ⟨rfl, rfl⟩ := Prod.mk.inj (Except.ok.inj finished)
    obtain ⟨events, left, added, leaves, inOrder⟩ := inside _ result middle done
    refine ⟨_, left, ?_, leaves, inOrder.around closure args result⟩
    simp [added]
  · cases finished

/-- The call of a closure that is refused stands alone. -/
theorem notesInOrder_refused (closure : Closure) (args : List Value) (expected : Arity) (got : Nat)
    : NotesInOrder
        (emit (.callClosure closure args) >>= fun _ =>
          (throw (.arityMismatch ⟨closure.text, expected, got⟩) : Eval Value)) := by
  intro machine outcome after finished
  cases finished
  exact ⟨[.callClosure closure args], 1, Array.toList_push,
    .refusal (refusesClosure_text closure expected got), .call closure args⟩

/-- The call of a primitive stands before the note of what it comes to, and nothing between. -/
theorem notesInOrder_answered {primitive : Primitive} {args : List Value}
    {outcome : Except EvalError Value} (computed : primitive.compute? args = some outcome)
    (computes : primitive.Computes args outcome)
    : NotesInOrder
        (emit (.callPrimitive primitive args) >>= fun _ =>
          emit (.primitiveReturned primitive outcome) >>= fun _ => ofOutcome outcome) := by
  intro machine ended after finished
  cases finished
  exact ⟨[.callPrimitive primitive args, .primitiveReturned primitive outcome], 0, by simp,
    computes.leavesOpen, .primitive computed⟩

-----------------------------------------------------------------------------------------
-- The rules of evaluation
-----------------------------------------------------------------------------------------

theorem notesInOrder_bindName (env : FrameId) (name : String) (value : Value)
    : NotesInOrder (bindName env name value) :=
  (notesInOrder_emit (.quiet rfl rfl rfl)).bind fun _ =>
    (notesInOrder_changeStore _).bind fun _ => notesInOrder_pure _

theorem notesInOrder_close (env : FrameId) (names : List String) (body : Expr)
    : NotesInOrder (close env names body) :=
  (notesInOrder_changeStore _).bind fun _ => notesInOrder_pure _

/-- A primitive that takes so many operands is made for them, so what it comes to is noted down. -/
theorem notesInOrder_callPrimitive (primitive : Primitive) (args : List Value)
    : NotesInOrder (callPrimitive primitive args) := by
  by_cases admitted : primitive.arity.Admits args.length
  · obtain ⟨outcome, computed, computes⟩ := Primitive.exists_compute? admitted
    rw [callPrimitive, checkArity, if_pos admitted, pure_bind, computed]
    exact notesInOrder_answered computed computes
  · rw [callPrimitive, checkArity, if_neg admitted]
    exact notesInOrder_throw (not_refusesClosure_of_head? primitive.head?_name _ _)

section Rules

variable {evaluate : Evaluator} (inside : ∀ expr env, NotesInOrder (evaluate expr env))

include inside

theorem notesInOrder_each (env : FrameId) (exprs : List Expr)
    : NotesInOrder (each evaluate env exprs) := by
  induction exprs with
  | nil => exact notesInOrder_pure []
  | cons expr rest ih =>
      exact (inside expr env).bind fun _ => ih.bind fun _ => notesInOrder_pure _

theorem notesInOrder_bindEach (env frame : FrameId) (bounds : List (String × Expr))
    : NotesInOrder (bindEach evaluate env frame (bindings bounds)) := by
  induction bounds with
  | nil => exact notesInOrder_pure ()
  | cons bound rest ih =>
      exact (inside bound.2 env).bind fun _ => (notesInOrder_changeStore _).bind fun _ => ih

theorem notesInOrder_callClosure (closure : Closure) (args : List Value)
    : NotesInOrder (callClosure evaluate closure args) := by
  by_cases admitted : closure.arity.Admits args.length
  · simp only [callClosure, checkArity, if_pos admitted, pure_bind, noteReturn_changeStore]
    exact ((notesInOrder_changeStore _).bind fun frame =>
      inside closure.body frame).called closure args
  · rw [callClosure, checkArity, if_neg admitted]
    exact notesInOrder_refused closure args _ _

theorem notesInOrder_apply (callee : Value) (args : List Value)
    : NotesInOrder (apply evaluate callee args) := by
  cases callee with
  | primitive primitive => exact notesInOrder_callPrimitive primitive args
  | closure closure => exact notesInOrder_callClosure inside closure args
  | integer _ | bool _ | unspecified =>
      exact notesInOrder_throw (not_refusesClosure_of_ne nofun)

theorem notesInOrder_evalApplication (items : List Expr) (env : FrameId)
    : NotesInOrder (evalApplication evaluate items env) := by
  refine (notesInOrder_each inside env items).bind fun values => ?_
  split
  · exact notesInOrder_apply inside _ _
  · exact notesInOrder_abort _

/-- One level of evaluation keeps order, by cases on the shape of the expression. -/
theorem notesInOrder_step (expr : Expr) (env : FrameId)
    : NotesInOrder (step evaluate expr env) := by
  have noted : NotesInOrder (emit (.eval expr)) := notesInOrder_emit (.quiet rfl rfl rfl)
  have malformed (what : Malformed) : NotesInOrder (throw (.malformed what) : Eval Value) :=
    notesInOrder_throw (not_refusesClosure_of_ne nofun)
  cases expr.shape with
  | symbol name => exact noted.bind fun _ => notesInOrder_fetch env name
  | number value => exact noted.bind fun _ => notesInOrder_pure _
  | empty => exact noted.bind fun _ => notesInOrder_throw (not_refusesClosure_of_ne nofun)
  | miscounted kind operands refused =>
      rw [step_form, evalForm_miscounted _ _ refused]
      exact noted.bind fun _ => notesInOrder_throw
        (not_refusesClosure_of_head? kind.head?_keyword _ _)
  | conditional test yes no =>
      rw [step_form, evalForm_conditional]
      refine noted.bind fun _ => (inside test env).bind fun answer => ?_
      split
      · exact inside no env
      · exact inside yes env
  | define name body =>
      rw [step_form, evalForm_define]
      exact noted.bind fun _ => (inside body env).bind fun value =>
        notesInOrder_bindName env name value
  | shorthand name parameters body =>
      rw [step_form, evalForm_shorthand, makeClosure_symbols]
      exact noted.bind fun _ => (notesInOrder_close env parameters body).bind fun value =>
        notesInOrder_bindName env name value
  | shorthandParameter name parameters found rest body noSymbol =>
      rw [step_form, evalForm_shorthand, makeClosure_first env parameters noSymbol]
      exact noted.bind fun _ => (malformed _).bind fun value =>
        notesInOrder_bindName env name value
  | defineTarget target body noSymbol noShorthand =>
      rw [step_form, evalForm_defineTarget evaluate env noSymbol noShorthand]
      exact noted.bind fun _ => malformed _
  | lambda parameters body =>
      rw [step_form, evalForm_lambda, makeClosure_symbols]
      exact noted.bind fun _ => notesInOrder_close env parameters body
  | lambdaParameter parameters found rest body noSymbol =>
      rw [step_form, evalForm_lambda, makeClosure_first env parameters noSymbol]
      exact noted.bind fun _ => malformed _
  | parameterList found body noList =>
      rw [step_form, evalForm_parameterList evaluate env noList]
      exact noted.bind fun _ => malformed _
  | letIn bounds body =>
      rw [step_form, evalForm_letIn]
      exact noted.bind fun _ => (notesInOrder_changeStore _).bind fun frame =>
        (notesInOrder_bindEach inside env frame bounds).bind fun _ => inside body frame
  | letBinding bounds found rest body noBinding =>
      rw [step_form, evalForm_letBinding evaluate env bounds noBinding]
      exact noted.bind fun _ => (notesInOrder_changeStore _).bind fun frame =>
        (notesInOrder_bindEach inside env frame bounds).bind fun _ => malformed _
  | bindingList found body noList =>
      rw [step_form, evalForm_bindingList evaluate env noList]
      exact noted.bind fun _ => malformed _
  | application head operands applied =>
      rw [step_application evaluate env applied]
      exact noted.bind fun _ => notesInOrder_evalApplication inside (head :: operands) env

end Rules

theorem notesInOrder_evaluate (depth : Nat) (expr : Expr) (env : FrameId)
    : NotesInOrder (evaluate depth expr env) := by
  induction depth generalizing expr env with
  | zero => exact notesInOrder_abort .tooDeep
  | succ depth ih => exact notesInOrder_step ih expr env

end Eval

end MiniLisp
