import MiniLisp.Proofs.Reading.RoundTrip
import MiniLisp.Proofs.Shell.Streams

/-! Forms printed on lines of their own: each fits on its line, is read back from it, and asks the
plain shell for nothing but its evaluation.
-/

namespace MiniLisp

open MiniLisp.Text

namespace Expr

/-- A character between items is a space or stands in one of them, by induction on the items. -/
theorem mem_intercalate_space {c : Char} {texts : List String}
    (member : c ∈ (" ".intercalate texts).toList)
    : c = ' ' ∨ ∃ text ∈ texts, c ∈ text.toList := by
  induction texts with
  | nil => simp at member
  | cons text rest ih =>
      cases rest with
      | nil => exact .inr ⟨text, List.mem_cons_self, by simpa using member⟩
      | cons next rest =>
          rw [String.intercalate_cons_cons, String.toList_append, String.toList_append,
            List.mem_append, List.mem_append] at member
          rcases member with (inText | space) | further
          · exact .inr ⟨text, List.mem_cons_self, inText⟩
          · exact .inl (by simpa using space)
          · rcases ih further with space | ⟨other, among, inOther⟩
            · exact .inl space
            · exact .inr ⟨other, List.mem_cons_of_mem text among, inOther⟩

/-- The only blank in the printed form of a readable expression is the space, by induction on the
expression.
-/
theorem Readable.eq_space_of_mem_text {expr : Expr} (readable : expr.Readable) {c : Char}
    (member : c ∈ expr.text.toList) (blank : isBlank c = true)
    : c = ' ' := by
  induction readable with
  | symbol readable =>
      rw [text_symbol] at member
      rw [readable.noBlank c member] at blank
      cases blank
  | number nonneg =>
      rw [text_number] at member
      have atomChar := (lexical_text nonneg).2 c member
      rw [Token.isAtomChar_of_isBlank blank] at atomChar
      cases atomChar
  | list _ ih =>
      rw [text_list, String.toList_append, String.toList_append, List.mem_append,
        List.mem_append] at member
      rcases member with (opening | inside) | closing
      · obtain rfl : c = '(' := by simpa using opening
        exact absurd blank (by decide)
      · rcases mem_intercalate_space inside with space | ⟨text, among, inText⟩
        · exact space
        · obtain ⟨item, member, rfl⟩ := List.mem_map.mp among
          exact ih item member inText
      · obtain rfl : c = ')' := by simpa using closing
        exact absurd blank (by decide)

/-- A readable expression is printed on one line. -/
theorem Readable.oneLine {expr : Expr} (readable : expr.Readable) : OneLine expr.text := by
  constructor
  · intro member
    exact absurd (readable.eq_space_of_mem_text member (by decide)) (by decide)
  · intro member
    exact absurd (readable.eq_space_of_mem_text member (by decide)) (by decide)

/-- The printed form of a readable expression is read as this expression. -/
theorem Readable.read_text {expr : Expr} (readable : expr.Readable)
    : read expr.text = .ok [expr] := by
  obtain ⟨tokens, scans, spelled⟩ := readable.scans
  have scanned := scans [] nofun
  rw [List.append_nil, Token.ofChars_nil, List.append_nil] at scanned
  refine read_eq_ok_iff.mpr ?_
  rw [Token.ofText, scanned]
  exact spelled

end Expr

namespace Shell

/-- Only the symbol that is the quitting word is printed as that word. -/
theorem eq_quit_of_text {form : Expr} (readable : form.Readable) (printed : form.text = quitWord)
    : form = .symbol quitWord := by
  have word : Expr.read quitWord = .ok [.symbol quitWord] := by decide +kernel
  have same := readable.read_text
  rw [printed, word] at same
  exact (List.cons.inj (Except.ok.inj same)).1.symm

/-- What a stream of printed forms asks of the plain shell, if none of them is the quitting word. -/
theorem requests_of_forms {forms : List Expr} (readable : ∀ form ∈ forms, form.Readable)
    (noQuit : .symbol quitWord ∉ forms)
    : Request.ofStream (encode (lines (forms.map Expr.text)))
      = forms.map fun form => .line form.text := by
  rw [Request.ofStream_lines, List.map_map]
  · rfl
  · intro text member
    obtain ⟨form, among, rfl⟩ := List.mem_map.mp member
    exact (readable form among).oneLine
  · intro member
    obtain ⟨form, among, printed⟩ := List.mem_map.mp member
    rw [eq_quit_of_text (readable form among) printed] at among
    exact noQuit among

end Shell

end MiniLisp
