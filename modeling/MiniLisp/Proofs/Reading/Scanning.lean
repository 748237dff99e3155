import MiniLisp.Token

/-! How the tokens of a text follow from the tokens of its parts.
An atom ends where its text does, provided that what follows cannot go on with it.
-/

namespace MiniLisp.Token

open MiniLisp.Text

/-- A token as scanning makes it: an atom is a non-empty run of characters that may stand in
atoms.
-/
def Lexical : Token → Prop
  | atom text => text.toList ≠ [] ∧ ∀ c ∈ text.toList, isAtomChar c = true
  | _ => True

/-- An atom right before these characters ends there. -/
def AtBoundary (chars : List Char) : Prop :=
  ∀ c ∈ chars.head?, isAtomChar c = false

/-- The characters have these tokens wherever they stand before a boundary. -/
def Scans (chars : List Char) (tokens : List Token) : Prop :=
  ∀ rest, AtBoundary rest → ofChars (chars ++ rest) = tokens ++ ofChars rest

theorem isAtomChar_of_isBlank {c : Char} (blank : isBlank c = true) : isAtomChar c = false := by
  simp [isAtomChar, blank]

theorem atBoundary_cons {c : Char} (h : isAtomChar c = false) (rest : List Char)
    : AtBoundary (c :: rest) := by
  simpa [AtBoundary] using h

/-- Blanks before a text add no token to it, by induction on them. -/
theorem ofChars_blanks {blanks : List Char} (blank : ∀ c ∈ blanks, isBlank c = true)
    (rest : List Char)
    : ofChars (blanks ++ rest) = ofChars rest := by
  induction blanks with
  | nil => rfl
  | cons c blanks ih =>
      rw [List.cons_append, ofChars_blank (blank c List.mem_cons_self)]
      exact ih fun other member => blank other (List.mem_cons_of_mem c member)

/-- Every token that scanning gives is lexical, by recursion along the scan. -/
theorem lexical_of_mem_ofChars {chars : List Char} {token : Token}
    (member : token ∈ ofChars chars)
    : token.Lexical := by
  fun_induction ofChars chars with
  | case1 => cases member
  | case2 rest ih | case3 rest _ ih =>
      rcases List.mem_cons.mp member with rfl | member
      · trivial
      · exact ih member
  | case4 c rest _ _ _ ih => exact ih member
  | case5 c rest opens closes blank ih =>
      rcases List.mem_cons.mp member with rfl | member
      · have first : isAtomChar c = true := by simp [isAtomChar, opens, closes, blank]
        simp only [Lexical, String.toList_ofList]
        refine ⟨List.cons_ne_nil _ _, fun other found => ?_⟩
        rcases List.mem_cons.mp found with rfl | found
        · exact first
        · exact List.all_eq_true.mp List.all_takeWhile other found
      · exact ih member

theorem takeWhile_atBoundary {rest : List Char} (boundary : AtBoundary rest)
    : rest.takeWhile isAtomChar = [] ∧ rest.dropWhile isAtomChar = rest := by
  cases rest with
  | nil => exact ⟨rfl, rfl⟩
  | cons c rest =>
      have stops : ¬ isAtomChar c = true := by simp [boundary c rfl]
      exact ⟨List.takeWhile_cons_of_neg stops, List.dropWhile_cons_of_neg stops⟩

/-- The text of a lexical atom scans as that atom. -/
theorem scans_atom {text : String} (lexical : (atom text).Lexical)
    : Scans text.toList [atom text] := by
  intro rest boundary
  obtain ⟨nonempty, inside⟩ := lexical
  cases spelled : text.toList with
  | nil => exact absurd spelled nonempty
  | cons c chars =>
      rw [spelled] at inside
      have tail : ∀ other ∈ chars, isAtomChar other = true := fun other member =>
        inside other (List.mem_cons_of_mem c member)
      obtain ⟨stops, goesOn⟩ := takeWhile_atBoundary boundary
      rw [List.cons_append, ofChars_atomChar (inside c List.mem_cons_self),
        List.takeWhile_append_of_pos tail, List.dropWhile_append_of_pos tail, stops, goesOn,
        List.append_nil, ← spelled, String.ofList_toList]
      rfl

theorem scans_nil : Scans [] [] := fun _ _ => rfl

/-- Neighbours scan one after the other if the first ends at a boundary. -/
theorem Scans.append {left right : List Char} {first second : List Token}
    (head : Scans left first) (tail : Scans right second)
    (apart : ∀ rest, AtBoundary rest → AtBoundary (right ++ rest))
    : Scans (left ++ right) (first ++ second) := by
  intro rest boundary
  rw [List.append_assoc, head _ (apart rest boundary), tail rest boundary, List.append_assoc]

end MiniLisp.Token
