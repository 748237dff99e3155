import MiniLisp.Value

/-! Evaluation errors: the causes, each with what it found, and their words. -/

namespace MiniLisp

/-- What is wrong with the operands of a special form of the right operand count. -/
inductive Malformed
  | defineTarget (found : Expr)
  | parameterList (found : Expr)
  | parameter (found : Expr)
  | bindingList (found : Expr)
  | binding (found : Expr)
deriving DecidableEq

/-- The words for a malformed special form. -/
def Malformed.message : Malformed → String
  | defineTarget found => "define: cannot bind to " ++ found.text
  | parameterList found => "lambda: expected a parameter list, got " ++ found.text
  | parameter found => "lambda: parameter " ++ found.text ++ " is not a symbol"
  | bindingList found => "let: expected a list of bindings, got " ++ found.text
  | binding found => "let: malformed binding " ++ found.text

/-- Why an evaluation failed. -/
inductive EvalError
  | undefinedName (name : String)
  | arityMismatch (mismatch : ArityMismatch)
  | notAProcedure (found : Value)
  | emptyForm (found : Expr)
  | malformed (what : Malformed)
  | notAnInteger (found : Value)
  | overflow (primitive : Primitive)
deriving DecidableEq

/-- The words for an evaluation error. -/
def EvalError.message : EvalError → String
  | undefinedName name => "undefined name: " ++ name
  | arityMismatch mismatch => mismatch.message
  | notAProcedure found => "application of non-procedure " ++ found.text
  | emptyForm found => "unknown expression type: " ++ found.text
  | malformed what => "bad syntax: " ++ what.message
  | notAnInteger found => "type mismatch: expected an integer, got " ++ found.text
  | overflow primitive => "integer overflow in " ++ primitive.name

end MiniLisp
