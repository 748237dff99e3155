import MiniLisp.Eval.Apply
import MiniLisp.Eval.SpecialForm

/-! Evaluation of expressions.
Each rule is written for a given way to evaluate the expressions inside, and evaluation nested at
most `n` deep ties the rules to evaluation nested at most `n - 1` deep.
-/

namespace MiniLisp

namespace Eval

/-- Evaluates expressions from left to right; the first failure is the outcome. -/
def each (evaluate : Evaluator) (env : FrameId) : List Expr → Eval (List Value)
  | [] => return []
  | expr :: rest => do
      let value ← evaluate expr env
      let values ← each evaluate env rest
      return value :: values

/-- The names of a parameter list. -/
def parameterNames : List Expr → Except EvalError (List String)
  | [] => .ok []
  | .symbol name :: rest => (parameterNames rest).map (name :: ·)
  | other :: _ => .error (.malformed (.parameter other))

/-- Makes a closure over a frame itself, not over a copy of it. -/
def makeClosure (parameters : List Expr) (body : Expr) (env : FrameId) : Eval Value := do
  let names ← ofOutcome (parameterNames parameters)
  let closure ← changeStore (·.makeClosure names body env)
  return .closure closure

/-- Gives up on operands of a count that the form's arity check lets no one pass with. -/
def miscounted (form : SpecialForm) (operands : List Expr) : Eval Value :=
  abort (.breach (.operandCount form.keyword operands.length))

/-- Evaluates a test, and then one of two expressions: only the boolean false chooses the last. -/
def evalIf (evaluate : Evaluator) (env : FrameId) : List Expr → Eval Value
  | [test, yes, no] => do
      let answer ← evaluate test env
      if answer.isFalse then evaluate no env else evaluate yes env
  | operands => miscounted .conditional operands

/-- The name that a definition binds, and its value. A list as target stands for a procedure with
the list's first symbol as its name and the rest as its parameters.
-/
def definition (evaluate : Evaluator) (target body : Expr) (env : FrameId)
    : Eval (String × Value) := do
  match target with
  | .symbol name => return (name, ← evaluate body env)
  | .list (.symbol name :: parameters) => return (name, ← makeClosure parameters body env)
  | _ => throw (.malformed (.defineTarget target))

/-- Binds a name in the frame itself. -/
def evalDefine (evaluate : Evaluator) (env : FrameId) : List Expr → Eval Value
  | [target, body] => do
      let (name, value) ← definition evaluate target body env
      emit (.define name value)
      define env name value
      return .unspecified
  | operands => miscounted .definition operands

/-- Makes a procedure of a parameter list and a body. -/
def evalLambda (env : FrameId) : List Expr → Eval Value
  | [.list parameters, body] => makeClosure parameters body env
  | [found, _] => throw (.malformed (.parameterList found))
  | operands => miscounted .lambda operands

/-- Evaluates the expressions of the bindings of a `let` from left to right in the frame around it,
and binds each name in the new frame as soon as its value is known. A binding's shape is checked when
its turn comes.
-/
def bindEach (evaluate : Evaluator) (env frame : FrameId) : List Expr → Eval Unit
  | [] => return ()
  | .list [.symbol name, expr] :: rest => do
      let value ← evaluate expr env
      define frame name value
      bindEach evaluate env frame rest
  | found :: _ => throw (.malformed (.binding found))

/-- Makes a new frame inside this one, fills it with the bindings, and evaluates the body in it. -/
def evalLet (evaluate : Evaluator) (env : FrameId) : List Expr → Eval Value
  | [.list bindings, body] => do
      let frame ← changeStore (·.spawn env)
      bindEach evaluate env frame bindings
      evaluate body frame
  | [found, _] => throw (.malformed (.bindingList found))
  | operands => miscounted .letIn operands

/-- Evaluates a special form, once its operand count is found to be right. -/
def evalForm (evaluate : Evaluator) (form : SpecialForm) (operands : List Expr)
    (env : FrameId) : Eval Value := do
  checkArity form.arity operands.length form.keyword
  match form with
  | .conditional => evalIf evaluate env operands
  | .definition => evalDefine evaluate env operands
  | .lambda => evalLambda env operands
  | .letIn => evalLet evaluate env operands

/-- Evaluates an application: the procedure and its operands in order, then the call. -/
def evalApplication (evaluate : Evaluator) (items : List Expr) (env : FrameId)
    : Eval Value := do
  match ← each evaluate env items with
  | callee :: args => apply evaluate callee args
  | [] => abort (.breach .emptyApplication)

/-- One level of evaluation, given how to evaluate the expressions inside. -/
def step (evaluate : Evaluator) (expr : Expr) (env : FrameId) : Eval Value := do
  emit (.eval expr)
  match expr with
  | .number value => return .integer value
  | .symbol name => fetch env name
  | .list [] => throw (.emptyForm expr)
  | .list (head :: operands) =>
      match SpecialForm.ofHead? head with
      | some form => evalForm evaluate form operands env
      | none => evalApplication evaluate (head :: operands) env

end Eval

/-- Evaluation in which at most `depth` evaluations are nested in one another. -/
def evaluate (depth : Nat) : Evaluator :=
  match depth with
  | 0 => fun _ _ => Eval.abort .tooDeep
  | depth + 1 => Eval.step (evaluate depth)

end MiniLisp
