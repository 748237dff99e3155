import MiniLisp.Expr.Basic

/-! The printed form of an expression: symbols and numbers as they are, lists in parentheses with
one space between neighbours.
-/

namespace MiniLisp.Expr

mutual

/-- The printed form of an expression. -/
def text : Expr → String
  | .symbol name => name
  | .number value => Integer.text value
  | .list items => "(" ++ " ".intercalate (texts items) ++ ")"

/-- The printed forms of expressions, in order. -/
def texts : List Expr → List String
  | [] => []
  | item :: rest => item.text :: texts rest

end

/-- Expressions are printed one by one, by induction on their list. -/
@[simp]
theorem texts_eq_map (items : List Expr) : texts items = items.map text := by
  induction items with
  | nil => rfl
  | cons item rest ih => rw [texts, ih, List.map_cons]

/-- A symbol prints as its name. -/
@[simp]
theorem text_symbol (name : String) : (symbol name).text = name := by
  rw [text]

/-- A number prints in decimal. -/
@[simp]
theorem text_number (value : Integer) : (number value).text = Integer.text value := by
  rw [text]

/-- A list prints as its items between parentheses. -/
theorem text_list (items : List Expr)
    : (list items).text = "(" ++ " ".intercalate (items.map text) ++ ")" := by
  rw [text, texts_eq_map]

end MiniLisp.Expr
