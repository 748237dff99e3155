import MiniLisp.Machine.Basic
import MiniLisp.Primitive.Compute

/-! Calling procedures with operands that have been evaluated. -/

namespace MiniLisp

/-- A way to evaluate an expression in a frame. -/
abbrev Evaluator := Expr → FrameId → Eval Value

namespace Eval

/-- Calls a primitive. A refused operand count leaves no trace. -/
def callPrimitive (primitive : Primitive) (args : List Value) : Eval Value := do
  checkArity primitive.arity args.length primitive.name
  emit (.callPrimitive primitive args)
  match primitive.compute? args with
  | some outcome =>
      emit (.primitiveReturned primitive outcome)
      ofOutcome outcome
  | none => abort (.breach (.operandCount primitive.name args.length))

/-- Calls a closure: its body is evaluated in a new frame, which binds the parameters and lies
inside the frame that the closure was made in, not the caller's.
-/
def callClosure (evaluate : Evaluator) (closure : Closure) (args : List Value)
    : Eval Value := do
  emit (.callClosure closure args)
  checkArity closure.arity args.length closure.text
  let frame ← changeStore (·.spawnWith closure.env (closure.parameters.zip args))
  noteReturn (evaluate closure.body frame)

/-- Calls a value, if it is a procedure. -/
def apply (evaluate : Evaluator) (callee : Value) (args : List Value) : Eval Value :=
  match callee with
  | .primitive primitive => callPrimitive primitive args
  | .closure closure => callClosure evaluate closure args
  | _ => throw (.notAProcedure callee)

end Eval

end MiniLisp
