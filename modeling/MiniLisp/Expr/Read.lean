import MiniLisp.Expr.Basic
import MiniLisp.Token

/-! Reading: the expressions that a text's tokens spell.
One pass over the tokens keeps the lists that are still open. The first token that cannot go on
decides the error; a text that ends inside a list is incomplete.
-/

namespace MiniLisp

/-- Why a text has no expressions. -/
inductive ReadError
  | unmatchedOpening
  | unmatchedClosing
  | integerTooLarge (digits : String)
deriving DecidableEq

/-- The words for a reading error. -/
def ReadError.message : ReadError → String
  | unmatchedOpening => "unmatched open paren"
  | unmatchedClosing => "unmatched close paren"
  | integerTooLarge digits => "integer literal " ++ digits ++ " does not fit in 64 bits"

namespace Expr

/-- The expression of an atom: digits alone are a number in decimal, anything else is a symbol, a
minus sign before digits too.
-/
def ofAtom (text : String) : Except ReadError Expr :=
  if text.toList.all Char.isDigit then
    match Integer.ofInt? (Nat.ofDigitChars 10 text.toList 0) with
    | some value => .ok (.number value)
    | none => .error (.integerTooLarge text)
  else .ok (.symbol text)

/-- Goes on reading with the items of the innermost open list (or the forms, outside any list) in
`done` and the items of the lists around it in `outer`, innermost first. Items are collected last
first.
-/
def readOn (done : List Expr) (outer : List (List Expr))
    : List Token → Except ReadError (List Expr)
  | [] => if outer.isEmpty then .ok done.reverse else .error .unmatchedOpening
  | .opening :: rest => readOn [] (done :: outer) rest
  | .closing :: rest =>
      match outer with
      | [] => .error .unmatchedClosing
      | above :: outer => readOn (.list done.reverse :: above) outer rest
  | .atom text :: rest =>
      match ofAtom text with
      | .ok leaf => readOn (leaf :: done) outer rest
      | .error error => .error error

/-- The forms that a sequence of tokens spells. -/
def ofTokens (tokens : List Token) : Except ReadError (List Expr) :=
  readOn [] [] tokens

/-- The forms of a text: all of them, or none and the reason. -/
def read (text : String) : Except ReadError (List Expr) :=
  ofTokens (Token.ofText text)

end Expr

end MiniLisp
