import MiniLisp.EvalError
import MiniLisp.Expr.Read
import MiniLisp.Text.Quoted

/-! Inspection texts: a value, expression or error with its constructors spelled out and its
texts quoted, as the log and diagnostics show it.
-/

namespace MiniLisp

namespace Inspect

/-- A constructor applied to one argument. -/
def tagged (tag content : String) : String :=
  tag ++ "(" ++ content ++ ")"

/-- A sequence in brackets. -/
def bracketed (contents : List String) : String :=
  "[" ++ ", ".intercalate contents ++ "]"

/-- A name. -/
def name (name : String) : String :=
  tagged "Symbol" (Text.quoted name)

end Inspect

open Inspect

namespace Expr

mutual

/-- The inspection text of an expression. -/
def inspect : Expr → String
  | .symbol name => tagged "Symbol" (Inspect.name name)
  | .number value => tagged "Number" (Integer.text value)
  | .list items => tagged "List" (tagged "ExprList" (bracketed (inspectItems items)))

/-- The inspection texts of expressions, in order. -/
def inspectItems : List Expr → List String
  | [] => []
  | item :: rest => item.inspect :: inspectItems rest

end

end Expr

/-- The inspection text of an arity: the ends of its range. -/
def Arity.inspect : Arity → String
  | between low high => tagged "Between" (Nat.repr low ++ "..=" ++ Nat.repr high)
  | atLeast low => tagged "AtLeast" (Nat.repr low ++ "..")

/-- The inspection text of a complaint about an operand count. -/
def ArityMismatch.inspect (mismatch : ArityMismatch) : String :=
  "BadArgCount \x7b name: " ++ Text.quoted mismatch.name ++ ", expected: "
    ++ mismatch.expected.inspect ++ ", got: " ++ Nat.repr mismatch.got ++ " \x7d"

/-- The inspection text of a primitive. -/
def Primitive.inspect (primitive : Primitive) : String :=
  "primitive function #<" ++ primitive.name ++ ">"

/-- The inspection text of a closure, which leaves out its frame: that may hold the closure. -/
def Closure.inspect (closure : Closure) : String :=
  "Closure\x7bparameters: " ++ bracketed (closure.parameters.map Inspect.name) ++ ", body: "
    ++ closure.body.inspect ++ "\x7d"

/-- The inspection text of a value. -/
def Value.inspect : Value → String
  | integer value => tagged "Integer" (Integer.text value)
  | bool value => tagged "Bool" (Value.bool value).text
  | closure made => tagged "Closure" made.inspect
  | primitive given => tagged "Primitive" given.inspect
  | unspecified => "Unspecified"

/-- The inspection text of a reading error. -/
def ReadError.inspect : ReadError → String
  | unmatchedOpening => "UnmatchedOpenParen"
  | unmatchedClosing => "UnmatchedCloseParen"
  | integerTooLarge digits => tagged "IntegerTooLarge" (Text.quoted digits)

/-- The inspection text of what is wrong with a special form. -/
def Malformed.inspect : Malformed → String
  | defineTarget found => tagged "DefineTargetNotASymbol" found.inspect
  | parameterList found => tagged "ParametersNotGivenAsList" found.inspect
  | parameter found => tagged "ParameterNotASymbol" found.inspect
  | bindingList found => tagged "BindingsNotGivenAsList" found.inspect
  | binding found => tagged "BadBinding" found.inspect

/-- The inspection text of an evaluation error. -/
def EvalError.inspect : EvalError → String
  | undefinedName name => tagged "UndefinedName" (tagged "UndefinedName" (Inspect.name name))
  | arityMismatch mismatch => tagged "ArityMismatch" mismatch.inspect
  | notAProcedure found => tagged "NotAProcedure" found.inspect
  | emptyForm found => tagged "UnknownExpressionType" found.inspect
  | malformed what => tagged "BadSyntax" what.inspect
  | notAnInteger found => tagged "TypeMismatch" (tagged "NotAnInt" found.inspect)
  | overflow primitive => tagged "IntegerOverflow" (Text.quoted primitive.name)

/-- The inspection text of an outcome, given that of its errors. -/
def Inspect.outcome {Failure : Type} (inspectFailure : Failure → String)
    : Except Failure Value → String
  | .ok value => tagged "Ok" value.inspect
  | .error failure => tagged "Err" (inspectFailure failure)

end MiniLisp
