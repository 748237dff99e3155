import MiniLisp.Arity
import MiniLisp.Expr.Basic

/-! Special forms: lists whose head is a keyword.
A keyword at the head of a list always makes the list a special form, whatever its name is bound
to; anywhere else it is a name like any other.
-/

namespace MiniLisp

/-- The kinds of special form. -/
inductive SpecialForm
  | conditional
  | definition
  | lambda
  | letIn
deriving DecidableEq

namespace SpecialForm

/-- Every kind of special form. -/
def all : List SpecialForm :=
  [conditional, definition, lambda, letIn]

/-- The symbol that heads a special form. -/
def keyword : SpecialForm → String
  | conditional => "if"
  | definition => "define"
  | lambda => "lambda"
  | letIn => "let"

/-- The operand counts that a special form accepts. -/
def arity : SpecialForm → Arity
  | conditional => .exactly 3
  | definition => .exactly 2
  | lambda => .exactly 2
  | letIn => .exactly 2

/-- The special form that a name is the keyword of. -/
def ofKeyword? (name : String) : Option SpecialForm :=
  all.find? (·.keyword = name)

/-- The special form that an expression makes of the list that it heads. -/
def ofHead? : Expr → Option SpecialForm
  | .symbol name => ofKeyword? name
  | _ => none

/-- Each special form is found by its keyword, by cases. -/
@[simp]
theorem ofKeyword?_keyword (form : SpecialForm) : ofKeyword? form.keyword = some form := by
  cases form <;> decide

/-- A name is a keyword exactly when it is the keyword of what it stands for. -/
theorem ofKeyword?_eq_some_iff {name : String} {form : SpecialForm}
    : ofKeyword? name = some form ↔ form.keyword = name := by
  constructor
  · intro found
    simpa using List.find?_some found
  · rintro rfl
    exact ofKeyword?_keyword form

end SpecialForm

end MiniLisp
