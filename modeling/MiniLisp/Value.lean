import MiniLisp.Expr.Print
import MiniLisp.Primitive.Basic

/-! Values: what expressions evaluate to and frames hold. -/

namespace MiniLisp

/-- A frame's place in the store that holds it. -/
abbrev FrameId := Nat

/-- A procedure made by evaluating a form. Its `id` is its identity: no two closures made in one
store share it, though their text and frame may agree. -/
structure Closure where
  id : Nat
  parameters : List String
  body : Expr
  env : FrameId
deriving DecidableEq

namespace Closure

/-- A closure takes one operand for each parameter. -/
def arity (closure : Closure) : Arity :=
  .exactly closure.parameters.length

/-- The printed form of a closure, which is also its name in complaints. -/
def text (closure : Closure) : String :=
  "#<procedure (" ++ " ".intercalate closure.parameters ++ ")>"

end Closure

/-- An integer, a boolean, a procedure, or the result of a form that has none to show. -/
inductive Value
  | integer (value : Integer)
  | bool (value : Bool)
  | closure (made : Closure)
  | primitive (given : Primitive)
  | unspecified
deriving DecidableEq

namespace Value

/-- The printed form of a value. -/
def text : Value → String
  | integer value => Integer.text value
  | bool true => "true"
  | bool false => "false"
  | closure made => made.text
  | primitive given => "#<primitive " ++ given.name ++ ">"
  | unspecified => ""

/-- Equality as programs see it: closures are equal when they are one and the same, other values
when their kind and content agree.
-/
def same : Value → Value → Bool
  | integer left, integer right => left = right
  | bool left, bool right => left = right
  | closure left, closure right => left.id = right.id
  | primitive left, primitive right => left = right
  | unspecified, unspecified => true
  | _, _ => false

/-- Every value equals itself, by cases. -/
@[simp]
theorem same_self (value : Value) : value.same value = true := by
  cases value <;> simp [same]

/-- The value is the one that a test takes for no. -/
def isFalse (value : Value) : Bool :=
  value.same (bool false)

/-- Only the boolean false is taken for no, by cases. -/
@[simp]
theorem isFalse_eq_true_iff {value : Value} : value.isFalse = true ↔ value = bool false := by
  cases value <;> simp [isFalse, same]

end Value

end MiniLisp
