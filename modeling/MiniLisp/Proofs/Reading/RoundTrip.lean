import MiniLisp.Expr.Print
import MiniLisp.Proofs.Reading.Spelling

/-! Printed expressions are read back, exactly if they are of the kind that reading gives.
Any blanks may stand around the printed forms, as long as there are some between two of them.
-/

namespace MiniLisp.Expr

open MiniLisp.Text

/-- The name of a symbol that can be read: it is one atom, and not a number. -/
structure ReadableName (name : String) : Prop where
  nonempty : name ≠ ""
  noBlank : ∀ c ∈ name.toList, isBlank c = false
  noParenthesis : ∀ c ∈ name.toList, c ≠ '(' ∧ c ≠ ')'
  notDigits : ∃ c ∈ name.toList, c.isDigit = false

/-- An expression that can be read: its symbols have readable names, and no number in it is
negative.
-/
inductive Readable : Expr → Prop
  | symbol {name} (readable : ReadableName name) : Readable (.symbol name)
  | number {value : Integer} (nonneg : 0 ≤ value.toInt) : Readable (.number value)
  | list {items} (inside : ∀ item ∈ items, Readable item) : Readable (.list items)

/-- The printed forms of expressions with a gap before each and one after the last, the gaps
counted from zero.
-/
def layout (gap : Nat → String) : List Expr → String
  | [] => gap 0
  | expr :: rest => gap 0 ++ expr.text ++ layout (fun place => gap (place + 1)) rest

-----------------------------------------------------------------------------------------
-- Atoms and leaves
-----------------------------------------------------------------------------------------

theorem ReadableName.lexical {name : String} (readable : ReadableName name)
    : (Token.atom name).Lexical := by
  refine ⟨fun empty => readable.nonempty (String.toList_eq_nil_iff.mp empty), ?_⟩
  intro c member
  obtain ⟨opens, closes⟩ := readable.noParenthesis c member
  simp [Token.isAtomChar, opens, closes, readable.noBlank c member]

theorem ReadableName.ofAtom {name : String} (readable : ReadableName name)
    : ofAtom name = .ok (.symbol name) := by
  obtain ⟨c, member, other⟩ := readable.notDigits
  refine if_neg fun digits => ?_
  rw [List.all_eq_true.mp digits c member] at other
  cases other

theorem toList_text_of_nonneg {value : Integer} (nonneg : 0 ≤ value.toInt)
    : value.text.toList = Nat.toDigits 10 value.toInt.natAbs := by
  rw [Integer.text, if_neg (by omega), Nat.toList_repr]

/-- Digits are not blank, and neither are they parentheses. -/
theorem isAtomChar_of_isDigit {c : Char} (digit : c.isDigit = true)
    : Token.isAtomChar c = true := by
  have range : 48 ≤ c.toNat ∧ c.toNat ≤ 57 := by
    simpa [Char.isDigit, UInt32.le_iff_toNat_le] using digit
  have opens : c ≠ '(' := by rintro rfl; exact absurd digit (by decide)
  have closes : c ≠ ')' := by rintro rfl; exact absurd digit (by decide)
  have blank : isBlank c = false := by
    simp only [isBlank, CharTable.holds, blanks, CharRange.holds, List.any_cons, List.any_nil,
      Bool.or_false, Bool.or_eq_false_iff, Bool.and_eq_false_iff, decide_eq_false_iff_not]
    omega
  simp [Token.isAtomChar, opens, closes, blank]

theorem lexical_text {value : Integer} (nonneg : 0 ≤ value.toInt)
    : (Token.atom value.text).Lexical := by
  rw [Token.Lexical, toList_text_of_nonneg nonneg]
  exact ⟨Nat.toDigits_ne_nil, fun c member =>
    isAtomChar_of_isDigit (Nat.isDigit_of_mem_toDigits (by decide) (by decide) member)⟩

/-- The decimal notation of an integer that is not negative is read as the integer. -/
theorem ofAtom_text {value : Integer} (nonneg : 0 ≤ value.toInt)
    : ofAtom value.text = .ok (.number value) := by
  have digits : value.text.toList.all Char.isDigit = true := by
    rw [toList_text_of_nonneg nonneg]
    exact List.all_eq_true.mpr fun c member =>
      Nat.isDigit_of_mem_toDigits (by decide) (by decide) member
  have found : Integer.ofInt? (Nat.ofDigitChars 10 value.text.toList 0) = some value := by
    rw [toList_text_of_nonneg nonneg, Nat.ofDigitChars_ten_toDigits,
      Integer.ofInt?_eq_some_iff]
    omega
  rw [Expr.ofAtom, if_pos digits, found]

/-- The leaf of a lexical atom is readable: a digit sequence is never negative, and any other atom
has a character that is no digit.
-/
theorem readable_of_ofAtom {text : String} {leaf : Expr} (lexical : (Token.atom text).Lexical)
    (found : ofAtom text = .ok leaf)
    : leaf.Readable := by
  rw [ofAtom] at found
  split at found
  · split at found
    · next value fits =>
      cases found
      have same := Integer.ofInt?_eq_some_iff.mp fits
      exact .number (by omega)
    · cases found
  · next other =>
    cases found
    obtain ⟨nonempty, inside⟩ := lexical
    have atomChar : ∀ c ∈ text.toList, (c ≠ '(' ∧ c ≠ ')') ∧ isBlank c = false := by
      intro c member
      simpa [Token.isAtomChar] using inside c member
    refine .symbol ⟨?_, fun c member => (atomChar c member).2,
      fun c member => (atomChar c member).1, ?_⟩
    · rintro rfl
      exact nonempty String.toList_empty
    · simpa using other

-----------------------------------------------------------------------------------------
-- Every form that is read is readable
-----------------------------------------------------------------------------------------

/-- What lexical tokens spell is readable, by induction on the spelling. -/
theorem SpelledBy.readable {tokens : List Token} {exprs : List Expr}
    (spelled : SpelledBy tokens exprs) (lexical : ∀ token ∈ tokens, token.Lexical)
    : ∀ expr ∈ exprs, expr.Readable := by
  induction spelled with
  | nil => exact fun _ member => nomatch member
  | leaf atom _ ih =>
      rw [List.forall_mem_cons] at lexical ⊢
      exact ⟨readable_of_ofAtom lexical.1 atom, ih lexical.2⟩
  | list _ _ insideIH moreIH =>
      simp only [List.cons_append, List.forall_mem_cons, List.forall_mem_append] at lexical
      rw [List.forall_mem_cons]
      obtain ⟨_, inner, _, rest⟩ := lexical
      exact ⟨.list (insideIH inner), moreIH rest⟩

theorem readable_of_read {text : String} {forms : List Expr} (accepted : read text = .ok forms)
    : ∀ form ∈ forms, form.Readable :=
  (read_eq_ok_iff.mp accepted).readable fun _ member => Token.lexical_of_mem_ofChars member

-----------------------------------------------------------------------------------------
-- Every readable expression is read back
-----------------------------------------------------------------------------------------

theorem atBoundary_space (rest : List Char) : Token.AtBoundary (' ' :: rest) :=
  Token.atBoundary_cons (by decide) rest

/-- Printed items with a space between neighbours scan as tokens that spell them, by induction on
the items.
-/
theorem scans_items {items : List Expr}
    (each
      : ∀ item ∈ items,
          ∃ tokens, Token.Scans item.text.toList tokens ∧ SpelledBy tokens [item])
    : ∃ tokens,
        Token.Scans (" ".intercalate (items.map text)).toList tokens
        ∧ SpelledBy tokens items := by
  induction items with
  | nil => exact ⟨[], by simpa using Token.scans_nil, .nil⟩
  | cons item rest ih =>
      obtain ⟨first, scans, spelled⟩ := each item List.mem_cons_self
      cases rest with
      | nil => exact ⟨first, by simpa using scans, spelled⟩
      | cons next rest =>
          obtain ⟨more, scansMore, spelledMore⟩ := ih fun other member =>
            each other (List.mem_cons_of_mem item member)
          refine ⟨first ++ more, ?_, spelled.append spelledMore⟩
          have spaced : Token.Scans
              (' ' :: (" ".intercalate ((next :: rest).map text)).toList) more := by
            intro after boundary
            rw [List.cons_append, Token.ofChars_blank (by decide), scansMore after boundary]
          have joined := scans.append spaced fun after _ => atBoundary_space _
          simpa [String.intercalate_cons_cons, List.append_assoc] using joined

/-- The printed form of a readable expression scans as tokens that spell it, by induction on the
expression.
-/
theorem Readable.scans {expr : Expr} (readable : expr.Readable)
    : ∃ tokens, Token.Scans expr.text.toList tokens ∧ SpelledBy tokens [expr] := by
  induction readable with
  | symbol readable =>
      exact ⟨_, by simpa using Token.scans_atom readable.lexical, .leaf readable.ofAtom .nil⟩
  | number nonneg =>
      exact ⟨_, by simpa using Token.scans_atom (lexical_text nonneg),
        .leaf (ofAtom_text nonneg) .nil⟩
  | @list items _ ih =>
      obtain ⟨inner, scans, spelled⟩ := scans_items ih
      refine ⟨.opening :: inner ++ [.closing], ?_, .list spelled .nil⟩
      intro rest boundary
      have delimited : (Expr.list items).text.toList ++ rest
          = '(' :: ((" ".intercalate (items.map text)).toList ++ ')' :: rest) := by
        simp [text_list]
      rw [delimited, Token.ofChars_opening, scans _ (Token.atBoundary_cons (by decide) rest),
        Token.ofChars_closing, List.append_assoc, List.cons_append]
      rfl

theorem blank_atBoundary {chars : List Char} (blank : ∀ c ∈ chars, isBlank c = true)
    : Token.AtBoundary chars :=
  fun c found => Token.isAtomChar_of_isBlank (blank c (List.mem_of_mem_head? found))

/-- Readable expressions are spelled by the tokens of any layout of them, by induction on their
list: every gap but the outer ones keeps two printed forms apart.
-/
theorem spelledBy_layout {exprs : List Expr} {gap : Nat → String}
    (blank : ∀ place, ∀ c ∈ (gap place).toList, isBlank c = true)
    (apart : ∀ place, 0 < place → place < exprs.length → gap place ≠ "")
    (readable : ∀ expr ∈ exprs, expr.Readable)
    : SpelledBy (Token.ofText (layout gap exprs)) exprs := by
  induction exprs generalizing gap with
  | nil =>
      have nothing := Token.ofChars_blanks (blank 0) []
      rw [List.append_nil, Token.ofChars_nil] at nothing
      rw [Token.ofText, layout, nothing]
      exact .nil
  | cons expr rest ih =>
      obtain ⟨tokens, scans, spelled⟩ := (readable expr List.mem_cons_self).scans
      have boundary : Token.AtBoundary (layout (fun place => gap (place + 1)) rest).toList := by
        cases rest with
        | nil => exact blank_atBoundary (blank 1)
        | cons next rest =>
            have some : gap 1 ≠ "" := apart 1 (by omega) (by simp)
            rw [layout, String.append_assoc, String.toList_append]
            cases spelledGap : (gap 1).toList with
            | nil => exact absurd (String.toList_eq_nil_iff.mp spelledGap) some
            | cons c chars =>
                have first : isBlank c = true := blank 1 c (by simp [spelledGap])
                exact Token.atBoundary_cons (Token.isAtomChar_of_isBlank first) _
      have more := @ih (fun place => gap (place + 1)) (fun place => blank (place + 1))
        (fun place _ inside => apart (place + 1) (by omega) (by simpa using inside))
        (fun other member => readable other (List.mem_cons_of_mem expr member))
      have split : Token.ofText (layout gap (expr :: rest))
          = tokens ++ Token.ofText (layout (fun place => gap (place + 1)) rest) := by
        rw [Token.ofText, Token.ofText, layout, String.toList_append, String.toList_append,
          List.append_assoc, Token.ofChars_blanks (blank 0), scans _ boundary]
      rw [split]
      exact spelled.append more

/-- A layout of expressions, with blanks at will around them and some between any two, is read as
these expressions exactly when each of them is readable.
-/
theorem read_layout_iff (exprs : List Expr) (gap : Nat → String)
    (blank : ∀ place, ∀ c ∈ (gap place).toList, isBlank c = true)
    (apart : ∀ place, 0 < place → place < exprs.length → gap place ≠ "")
    : read (layout gap exprs) = .ok exprs ↔ ∀ expr ∈ exprs, expr.Readable := by
  constructor
  · exact readable_of_read
  · intro readable
    exact read_eq_ok_iff.mpr (spelledBy_layout blank apart readable)

/-- Printed forms stay apart behind tabs and spaces: a nested list, the largest number and a symbol
that starts like a negative number.
-/
theorem read_layout_nested
    : (∀ _place : Nat, ∀ c ∈ ("\t " : String).toList, isBlank c = true)
      ∧ ("\t " : String) ≠ ""
      ∧ read (layout (fun _ => "\t ")
            [.list [.symbol "f", .list []], .number ⟨9223372036854775807, by decide, by decide⟩,
              .symbol "-5"])
        = .ok
            [.list [.symbol "f", .list []], .number ⟨9223372036854775807, by decide, by decide⟩,
              .symbol "-5"] := by
  have blank : ∀ c ∈ ("\t " : String).toList, isBlank c = true := List.all_eq_true.mp rfl
  have apart : ("\t " : String) ≠ "" := by simp
  refine ⟨fun _ => blank, apart, (read_layout_iff _ _ (fun _ => blank) fun _ _ _ => apart).mpr ?_⟩
  have name (text : String) (some : text ≠ "")
      (plain : text.toList.all (fun c => !isBlank c && c != '(' && c != ')') = true)
      (other : text.toList.any (fun c => !c.isDigit) = true)
      : Readable (.symbol text) := by
    simp only [List.all_eq_true, Bool.and_eq_true, Bool.not_eq_true', bne_iff_ne] at plain
    refine .symbol ⟨some, fun c member => (plain c member).1.1,
      fun c member => ⟨(plain c member).1.2, (plain c member).2⟩, ?_⟩
    simpa using other
  have call : Readable (.list [.symbol "f", .list []]) := by
    refine .list (List.forall_mem_cons.mpr ⟨name "f" (by simp) rfl rfl, ?_⟩)
    exact List.forall_mem_singleton.mpr (.list fun _ member => nomatch member)
  exact List.forall_mem_cons.mpr ⟨call, List.forall_mem_cons.mpr ⟨.number (by decide),
    List.forall_mem_singleton.mpr (name "-5" (by simp) rfl rfl)⟩⟩

end MiniLisp.Expr
