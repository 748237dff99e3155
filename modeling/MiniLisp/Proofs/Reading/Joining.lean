import MiniLisp.Proofs.Reading.Spelling

/-! Texts with blanks between them, line feeds for one: they are read as the forms of one after
those of the other. A blank ends the atom before it, so joining makes no token of two.
-/

namespace MiniLisp

open MiniLisp.Text

namespace Token

/-- An atom that begins in some characters ends in them if a boundary follows, by induction on them.
-/
theorem span_append {rest : List Char} (boundary : AtBoundary rest) (chars : List Char)
    : (chars ++ rest).takeWhile isAtomChar = chars.takeWhile isAtomChar
      ∧ (chars ++ rest).dropWhile isAtomChar = chars.dropWhile isAtomChar ++ rest := by
  induction chars with
  | nil => simpa using takeWhile_atBoundary boundary
  | cons c chars ih =>
      by_cases inside : isAtomChar c = true
      · simp [inside, ih]
      · simp [inside]

/-- All characters scan as their own tokens, by recursion along the scan. -/
theorem scans_ofChars (chars : List Char) : Scans chars (ofChars chars) := by
  intro rest boundary
  fun_induction ofChars chars with
  | case1 => rfl
  | case2 chars ih => rw [List.cons_append, ofChars_opening, ih, List.cons_append]
  | case3 chars _ ih => rw [List.cons_append, ofChars_closing, ih, List.cons_append]
  | case4 c chars _ _ blank ih => rw [List.cons_append, ofChars_blank blank, ih]
  | case5 c chars opens closes blank ih =>
      have inside : isAtomChar c = true := by simp [isAtomChar, opens, closes, blank]
      obtain ⟨taken, dropped⟩ := span_append boundary chars
      rw [List.cons_append, ofChars_atomChar inside, taken, dropped, ih, List.cons_append]

/-- Blanks between two texts keep their tokens apart, since an atom ends at the first of them. -/
theorem ofText_apart {gap : String} (blank : ∀ c ∈ gap.toList, isBlank c = true) (some : gap ≠ "")
    (text more : String)
    : ofText (text ++ gap ++ more) = ofText text ++ ofText more := by
  have boundary : AtBoundary (gap.toList ++ more.toList) := by
    cases spelled : gap.toList with
    | nil => exact absurd (String.toList_eq_nil_iff.mp spelled) some
    | cons c chars =>
        have first : isBlank c = true := blank c (by simp [spelled])
        exact atBoundary_cons (isAtomChar_of_isBlank first) _
  simp only [ofText, String.toList_append, List.append_assoc]
  rw [scans_ofChars text.toList _ boundary, ofChars_blanks blank]

/-- Texts joined by line feeds have the tokens of each in order, by induction on the texts. -/
theorem ofText_intercalate (texts : List String)
    : ofText ("\n".intercalate texts) = texts.flatMap ofText := by
  induction texts with
  | nil => exact ofChars_nil
  | cons text rest ih =>
      cases rest with
      | nil => simp
      | cons next rest =>
          have blank : ∀ c ∈ ("\n" : String).toList, isBlank c = true := List.all_eq_true.mp rfl
          have apart := ofText_apart blank (by simp) text ("\n".intercalate (next :: rest))
          simp only [String.intercalate_cons_cons, apart, ih, List.flatMap_cons]

end Token

/-- Texts that are read are read as all of their forms when they are joined by line feeds, by
induction on the texts.
-/
theorem Expr.read_intercalate {Item : Type} {items : List Item} {text : Item → String}
    {forms : Item → List Expr} (accepted : ∀ item ∈ items, read (text item) = .ok (forms item))
    : read ("\n".intercalate (items.map text)) = .ok (items.flatMap forms) := by
  rw [read_eq_ok_iff, Token.ofText_intercalate]
  induction items with
  | nil => exact .nil
  | cons item rest ih =>
      rw [List.forall_mem_cons] at accepted
      exact (read_eq_ok_iff.mp accepted.1).append (ih accepted.2)

end MiniLisp
