import MiniLisp.Text.Printable

/-! Quoted texts: what is shown of a text where its ends and its characters must be seen. -/

namespace MiniLisp.Text

/-- The digits of a code point in base sixteen, in lower case and without padding. -/
def hexDigits (c : Char) : List Char :=
  Nat.toDigits 16 c.toNat

/-- What stands for a character between the quotes: six characters have an escape of their own,
a printable one stands for itself, and any other is written by its code point.
-/
def escape (c : Char) : List Char :=
  match c with
  | '\"' => ['\\', '\"']
  | '\\' => ['\\', '\\']
  | '\n' => ['\\', 'n']
  | '\r' => ['\\', 'r']
  | '\t' => ['\\', 't']
  | '\x00' => ['\\', '0']
  | c => if isPrintable c then [c] else ['\\', 'u', '{'] ++ hexDigits c ++ ['}']

/-- A text between double quotes, character by character. -/
def quoted (text : String) : String :=
  String.ofList ('\"' :: text.toList.flatMap escape ++ ['\"'])

end MiniLisp.Text
