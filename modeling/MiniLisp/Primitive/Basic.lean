import MiniLisp.Arity

/-! The primitive procedures: their names and the operand counts they accept. -/

namespace MiniLisp

/-- A procedure that every global frame binds to its name. -/
inductive Primitive
  | add
  | sub
  | mul
  | equal
  | less
deriving DecidableEq

namespace Primitive

/-- Every primitive, in the order of their names. -/
def all : List Primitive :=
  [mul, add, sub, less, equal]

/-- The name a primitive is bound to and printed with. -/
def name : Primitive → String
  | add => "+"
  | sub => "-"
  | mul => "*"
  | equal => "="
  | less => "<"

/-- The operand counts that a primitive accepts. -/
def arity : Primitive → Arity
  | add => .atLeast 0
  | sub => .between 1 2
  | mul => .atLeast 0
  | equal => .exactly 2
  | less => .exactly 2

/-- The list of primitives leaves none out, by cases. -/
@[simp]
theorem mem_all (primitive : Primitive) : primitive ∈ all := by
  cases primitive <;> decide

/-- A name belongs to one primitive only, by cases. -/
@[simp]
theorem name_inj {left right : Primitive} : left.name = right.name ↔ left = right := by
  cases left <;> cases right <;> decide

/-- The primitive of a name. -/
def ofName? (name : String) : Option Primitive :=
  all.find? (·.name = name)

/-- Each primitive is found by its name, by cases. -/
@[simp]
theorem ofName?_name (primitive : Primitive) : ofName? primitive.name = some primitive := by
  cases primitive <;> decide

end Primitive

end MiniLisp
