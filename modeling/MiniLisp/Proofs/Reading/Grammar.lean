import Mathlib.Data.List.Forall2
import MiniLisp.Proofs.Reading.Spelling

/-! The grammar of texts: which tokens stand for which expressions, position by position.
Written out, an expression is a row of marks: a delimiter at either end of each list, and one mark
for each leaf. The reader accepts a text exactly if its tokens match such a row, and gives the
expressions that the row was written from.
-/

namespace MiniLisp

namespace Numeral

/-- An atom is a numeral if it has digits only. -/
def Holds (text : String) : Prop :=
  ∀ c ∈ text.toList, c.isDigit = true

instance (text : String) : Decidable (Holds text) :=
  inferInstanceAs (Decidable (∀ c ∈ text.toList, c.isDigit = true))

/-- The number that a numeral stands for in decimal, which zeros in front do not change. -/
def value (text : String) : Nat :=
  Nat.ofDigitChars 10 text.toList 0

theorem all_isDigit_iff {text : String} : text.toList.all Char.isDigit = true ↔ Holds text :=
  List.all_eq_true

end Numeral

namespace Expr

/-- A place in a written expression: a delimiter of a list, or a leaf. -/
inductive Mark
  | opening
  | closing
  | number (value : Integer)
  | symbol (name : String)

/-- The token may stand at such a place. A number is spelled by every numeral of its value, and as
integers end below `integerBound`, a numeral of a greater value spells nothing. A symbol is spelled
by its name, unless that is a numeral.
-/
inductive Mark.Matches : Mark → Token → Prop
  | opening : Matches .opening .opening
  | closing : Matches .closing .closing
  | number {value : Integer} {text : String} (numeral : Numeral.Holds text)
    (same : value.toInt = Numeral.value text)
    : Matches (.number value) (.atom text)
  | symbol {name} (other : ¬ Numeral.Holds name) : Matches (.symbol name) (.atom name)

mutual

/-- An expression written out. -/
def marks : Expr → List Mark
  | .symbol name => [.symbol name]
  | .number value => [.number value]
  | .list items => .opening :: marksOfAll items ++ [.closing]

/-- Expressions written out one after the other. -/
def marksOfAll : List Expr → List Mark
  | [] => []
  | item :: rest => item.marks ++ marksOfAll rest

end

-----------------------------------------------------------------------------------------
-- Leaves
-----------------------------------------------------------------------------------------

/-- A leaf is read from an atom exactly if it is written as one mark that the atom matches. -/
theorem ofAtom_eq_ok_iff {text : String} {leaf : Expr}
    : ofAtom text = .ok leaf ↔ ∃ mark : Mark, leaf.marks = [mark] ∧ mark.Matches (.atom text) := by
  constructor
  · intro found
    rw [ofAtom] at found
    split at found
    · next digits =>
      have numeral := Numeral.all_isDigit_iff.mp digits
      split at found
      · next value fits =>
        obtain rfl := Except.ok.inj found
        exact ⟨.number value, by rw [marks], .number numeral (Integer.ofInt?_eq_some_iff.mp fits)⟩
      · cases found
    · next other =>
      obtain rfl := Except.ok.inj found
      exact ⟨.symbol text, by rw [marks], .symbol (mt Numeral.all_isDigit_iff.mpr other)⟩
  · rintro ⟨mark, written, spelled⟩
    cases leaf with
    | symbol name =>
        rw [marks] at written
        obtain rfl := List.singleton_inj.mp written
        cases spelled with
        | symbol other => exact if_neg (mt Numeral.all_isDigit_iff.mp other)
    | number value =>
        rw [marks] at written
        obtain rfl := List.singleton_inj.mp written
        cases spelled with
        | number numeral same =>
            have fits : Integer.ofInt? (Nat.ofDigitChars 10 text.toList 0) = some value :=
              Integer.ofInt?_eq_some_iff.mpr same
            rw [ofAtom, if_pos (Numeral.all_isDigit_iff.mpr numeral), fits]
    | list items => simp [marks] at written

-----------------------------------------------------------------------------------------
-- Rows of marks
-----------------------------------------------------------------------------------------

theorem forall₂_append_left {Left Right : Type} {related : Left → Right → Prop}
    {first second : List Left} {row : List Right}
    (together : List.Forall₂ related (first ++ second) row)
    : ∃ start rest,
        row = start ++ rest
        ∧ List.Forall₂ related first start
        ∧ List.Forall₂ related second rest := by
  induction first generalizing row with
  | nil => exact ⟨[], row, rfl, .nil, together⟩
  | cons head first ih =>
      cases together with
      | cons headTogether tailTogether =>
          obtain ⟨start, rest, rfl, inside, after⟩ := ih tailTogether
          exact ⟨_ :: start, rest, rfl, .cons headTogether inside, after⟩

/-- Tokens that spell expressions match what these are written as, by induction on the spelling. -/
theorem SpelledBy.forall₂_matches {tokens : List Token} {exprs : List Expr}
    (spelled : SpelledBy tokens exprs)
    : List.Forall₂ Mark.Matches (marksOfAll exprs) tokens := by
  induction spelled with
  | nil =>
      rw [marksOfAll]
      exact .nil
  | leaf atom _ ih =>
      obtain ⟨mark, written, matched⟩ := ofAtom_eq_ok_iff.mp atom
      rw [marksOfAll, written]
      exact .cons matched ih
  | list _ _ insideIH moreIH =>
      have closed := List.rel_append insideIH (.cons .closing moreIH)
      simpa [marksOfAll, marks] using List.Forall₂.cons Mark.Matches.opening closed

theorem spelledBy_of_forall₂_matches {exprs : List Expr}
    (each
      : ∀ expr ∈ exprs, ∀ tokens, List.Forall₂ Mark.Matches expr.marks tokens
        → SpelledBy tokens [expr])
    {tokens : List Token} (matched : List.Forall₂ Mark.Matches (marksOfAll exprs) tokens)
    : SpelledBy tokens exprs := by
  induction exprs generalizing tokens with
  | nil =>
      rw [marksOfAll] at matched
      cases matched
      exact .nil
  | cons expr rest ih =>
      rw [marksOfAll] at matched
      obtain ⟨first, more, rfl, head, tail⟩ := forall₂_append_left matched
      rw [List.forall_mem_cons] at each
      have spelledFirst : SpelledBy first [expr] := each.1 first head
      exact spelledFirst.append (ih each.2 tail)

/-- Tokens that match a written expression spell it, by induction on the expression. -/
theorem spelledBy_of_matches {expr : Expr} {tokens : List Token}
    (matched : List.Forall₂ Mark.Matches expr.marks tokens)
    : SpelledBy tokens [expr] := by
  have leaf {expr : Expr} {mark : Mark} {text : String} (written : expr.marks = [mark])
      (here : mark.Matches (.atom text))
      : SpelledBy [.atom text] [expr] :=
    .leaf (ofAtom_eq_ok_iff.mpr ⟨mark, written, here⟩) .nil
  induction expr generalizing tokens with
  | symbol name =>
      have written : (symbol name).marks = [.symbol name] := by rw [marks]
      rw [written] at matched
      cases matched with
      | cons here nothing =>
          cases nothing
          cases here with
          | symbol other => exact leaf written (.symbol other)
  | number value =>
      have written : (number value).marks = [.number value] := by rw [marks]
      rw [written] at matched
      cases matched with
      | cons here nothing =>
          cases nothing
          cases here with
          | number numeral same => exact leaf written (.number numeral same)
  | list items ih =>
      rw [marks, List.cons_append] at matched
      cases matched with
      | cons opened rest =>
          obtain ⟨inner, last, rfl, inside, closed⟩ := forall₂_append_left rest
          cases opened
          cases closed with
          | cons here nothing =>
              cases nothing
              cases here
              have spelled : SpelledBy inner items :=
                spelledBy_of_forall₂_matches (fun item member _ => ih item member) inside
              exact .list spelled .nil

/-- A text is read as forms exactly if its tokens match the forms written out, position by
position: parentheses match delimiters, and an atom matches a number if it is a numeral of that
value, or the symbol that it names if it is no numeral.
-/
theorem read_eq_ok_iff_marks (text : String) (forms : List Expr)
    : read text = .ok forms ↔ List.Forall₂ Mark.Matches (marksOfAll forms) (Token.ofText text) := by
  rw [read_eq_ok_iff]
  constructor
  · exact SpelledBy.forall₂_matches
  · exact spelledBy_of_forall₂_matches fun _ _ _ => spelledBy_of_matches

end Expr

end MiniLisp
