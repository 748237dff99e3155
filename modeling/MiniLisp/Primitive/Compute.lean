import MiniLisp.EvalError

/-! What the primitives compute.
Arithmetic wants integers and complains about the first operand that is none, before it computes.
Sums and products are taken from left to right and fail where they first leave the range of
integers.
-/

namespace MiniLisp

/-- The integers that values are, or the first value that is none. -/
def integers : List Value → Except EvalError (List Integer)
  | [] => .ok []
  | .integer n :: rest => (integers rest).map (n :: ·)
  | other :: _ => .error (.notAnInteger other)

namespace Primitive

/-- The integer computed, or the complaint that it does not fit. -/
def fitted (primitive : Primitive) : Option Integer → Except EvalError Value
  | some n => .ok (.integer n)
  | none => .error (.overflow primitive)

/-- The sum of integers, taken from left to right. -/
def sum (numbers : List Integer) : Except EvalError Value :=
  add.fitted (numbers.foldlM Integer.add? .zero)

/-- The product of integers, taken from left to right. -/
def product (numbers : List Integer) : Except EvalError Value :=
  mul.fitted (numbers.foldlM Integer.mul? .one)

/-- The negation of one integer, or the difference of two. -/
def difference? : List Integer → Option (Except EvalError Value)
  | [n] => some (sub.fitted n.neg?)
  | [left, right] => some (sub.fitted (left.sub? right))
  | _ => none

/-- The order of two integers. -/
def order? : List Integer → Option (Except EvalError Value)
  | [left, right] => some (.ok (.bool (left.less right)))
  | _ => none

/-- The equality of two values of any kind. -/
def equality? : List Value → Option (Except EvalError Value)
  | [left, right] => some (.ok (.bool (left.same right)))
  | _ => none

/-- What is computed from the integers that the operands are, if they are. -/
def onIntegers (compute : List Integer → Option (Except EvalError Value)) (args : List Value)
    : Option (Except EvalError Value) :=
  match integers args with
  | .ok numbers => compute numbers
  | .error error => some (.error error)

/-- What a primitive makes of its operands; nothing for an operand count that it is not made for. -/
def compute? (primitive : Primitive) (args : List Value) : Option (Except EvalError Value) :=
  match primitive with
  | add => onIntegers (some ∘ sum) args
  | sub => onIntegers difference? args
  | mul => onIntegers (some ∘ product) args
  | equal => equality? args
  | less => onIntegers order? args

end Primitive

end MiniLisp
