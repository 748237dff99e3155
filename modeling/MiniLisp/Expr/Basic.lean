import MiniLisp.Integer

/-! Expressions: the trees that are read, evaluated and printed.
An expression need not be one that can be read: a symbol may hold any text and a number may be
negative.
-/

namespace MiniLisp

/-- A symbol, a number, or a list of expressions. -/
inductive Expr
  | symbol (name : String)
  | number (value : Integer)
  | list (items : List Expr)

namespace Expr

/-- Structural induction in which a list's case has the statement for each of its items. -/
@[elab_as_elim, induction_eliminator]
theorem inductionOn {motive : Expr → Prop} (symbol : ∀ name, motive (.symbol name))
    (number : ∀ value, motive (.number value))
    (list : ∀ items, (∀ item ∈ items, motive item) → motive (.list items)) (expr : Expr)
    : motive expr :=
  Expr.rec (motive_1 := motive) (motive_2 := fun items => ∀ item ∈ items, motive item)
    symbol number list (fun _ member => nomatch member)
    (fun _ _ head rest item member => by
      rcases List.mem_cons.mp member with rfl | member
      · exact head
      · exact rest item member)
    expr

mutual

/-- Equality of expressions is decided along their structure. -/
def decideEq : (left right : Expr) → Decidable (left = right)
  | .symbol left, .symbol right => decidable_of_iff (left = right) (by simp)
  | .number left, .number right => decidable_of_iff (left = right) (by simp)
  | .list left, .list right =>
      match decideEqItems left right with
      | .isTrue same => .isTrue (same ▸ rfl)
      | .isFalse differ => .isFalse fun same => differ (Expr.list.inj same)
  | .symbol _, .number _ => .isFalse nofun
  | .symbol _, .list _ => .isFalse nofun
  | .number _, .symbol _ => .isFalse nofun
  | .number _, .list _ => .isFalse nofun
  | .list _, .symbol _ => .isFalse nofun
  | .list _, .number _ => .isFalse nofun

/-- Equality of lists of expressions is decided position by position. -/
def decideEqItems : (left right : List Expr) → Decidable (left = right)
  | [], [] => .isTrue rfl
  | [], _ :: _ => .isFalse nofun
  | _ :: _, [] => .isFalse nofun
  | left :: lefts, right :: rights =>
      match decideEq left right, decideEqItems lefts rights with
      | .isTrue head, .isTrue tail => .isTrue (head ▸ tail ▸ rfl)
      | .isFalse differ, _ => .isFalse fun same => differ (List.cons.inj same).1
      | _, .isFalse differ => .isFalse fun same => differ (List.cons.inj same).2

end

instance : DecidableEq Expr :=
  decideEq

end Expr

end MiniLisp
