import MiniLisp.Text.Blank

/-! Tokens: the delimiters and atoms of a text.
Blanks only separate, so every text has tokens, one with unbalanced parentheses too.
-/

namespace MiniLisp

open MiniLisp.Text

/-- A parenthesis, or a run of characters that are neither parentheses nor blank. -/
inductive Token
  | opening
  | closing
  | atom (text : String)
deriving DecidableEq

namespace Token

/-- The character may stand in an atom. -/
def isAtomChar (c : Char) : Bool :=
  c != '(' && c != ')' && !isBlank c

/-- The tokens of a sequence of characters, each atom as long as it can be. -/
def ofChars : List Char → List Token
  | [] => []
  | c :: rest =>
      if c = '(' then opening :: ofChars rest
      else if c = ')' then closing :: ofChars rest
      else if isBlank c then ofChars rest
      else
        atom (String.ofList (c :: rest.takeWhile isAtomChar))
          :: ofChars (rest.dropWhile isAtomChar)
termination_by chars => chars.length
decreasing_by
  all_goals simp only [List.length_cons]
  all_goals have := (List.dropWhile_sublist isAtomChar (l := rest)).length_le
  all_goals omega

/-- The tokens of a text, from left to right. -/
def ofText (text : String) : List Token :=
  ofChars text.toList

/-- Nothing has no tokens. -/
@[simp]
theorem ofChars_nil : ofChars [] = [] := by
  simp [ofChars]

/-- An opening parenthesis is a token by itself. -/
@[simp]
theorem ofChars_opening (rest : List Char) : ofChars ('(' :: rest) = opening :: ofChars rest := by
  rw [ofChars, if_pos rfl]

/-- A closing parenthesis is a token by itself. -/
@[simp]
theorem ofChars_closing (rest : List Char) : ofChars (')' :: rest) = closing :: ofChars rest := by
  rw [ofChars, if_neg (by decide), if_pos rfl]

/-- A blank belongs to no token. -/
theorem ofChars_blank {c : Char} (blank : isBlank c = true) (rest : List Char)
    : ofChars (c :: rest) = ofChars rest := by
  have opens : c ≠ '(' := by rintro rfl; exact absurd blank (by decide)
  have closes : c ≠ ')' := by rintro rfl; exact absurd blank (by decide)
  rw [ofChars, if_neg opens, if_neg closes, if_pos blank]

/-- An atom takes every character it can. -/
theorem ofChars_atomChar {c : Char} (h : isAtomChar c = true) (rest : List Char)
    : ofChars (c :: rest)
      = atom (String.ofList (c :: rest.takeWhile isAtomChar))
          :: ofChars (rest.dropWhile isAtomChar) := by
  simp only [isAtomChar, Bool.and_eq_true, bne_iff_ne, ne_eq, Bool.not_eq_true'] at h
  rw [ofChars, if_neg h.1.1, if_neg h.1.2, h.2, if_neg (by decide)]

end Token

end MiniLisp
