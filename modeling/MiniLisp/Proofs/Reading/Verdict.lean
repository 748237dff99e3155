import MiniLisp.Proofs.Reading.Grammar

/-! Whether a text can be read, decided by counting open lists.
A scan over the tokens that keeps no expressions, only how deep it is, comes to the reader's verdict:
the first token that it cannot pass names the error, and otherwise all lists must be closed at the
end.
-/

namespace MiniLisp

/-- The depth after a token at a depth: a closing delimiter needs an open list, and a numeral must
be the value of an integer.
-/
def Token.pass (depth : Nat) : Token → Except ReadError Nat
  | .opening => .ok (depth + 1)
  | .closing => if depth = 0 then .error .unmatchedClosing else .ok (depth - 1)
  | .atom text =>
      if Numeral.Holds text ∧ integerBound ≤ Numeral.value text then
        .error (.integerTooLarge text)
      else .ok depth

namespace Expr

/-- The verdict at the end of a text, by the depth there. -/
def settle (depth : Nat) : Except ReadError Unit :=
  if depth = 0 then .ok () else .error .unmatchedOpening

/-- The verdict on tokens, by one scan from left to right that starts at depth zero. -/
def verdict (tokens : List Token) : Except ReadError Unit := do
  let depth ← tokens.foldlM Token.pass 0
  settle depth

theorem ofAtom_of_fits {text : String}
    (fits : ¬ (Numeral.Holds text ∧ integerBound ≤ Numeral.value text))
    : ∃ leaf, ofAtom text = .ok leaf := by
  by_cases numeral : Numeral.Holds text
  · have below : Numeral.value text < integerBound := by
      exact Int.not_le.mp fun above => fits ⟨numeral, above⟩
    have lower : -integerBound ≤ (Numeral.value text : Int) := by
      have positive : (0 : Int) ≤ integerBound := by decide
      omega
    exact ⟨.number ⟨Numeral.value text, lower, below⟩,
      ofAtom_eq_ok_iff.mpr ⟨_, by rw [marks], .number numeral rfl⟩⟩
  · exact ⟨.symbol text, ofAtom_eq_ok_iff.mpr ⟨_, by rw [marks], .symbol numeral⟩⟩

theorem ofAtom_of_large {text : String} (numeral : Numeral.Holds text)
    (large : integerBound ≤ Numeral.value text)
    : ofAtom text = .error (.integerTooLarge text) := by
  have outside : Integer.ofInt? (Nat.ofDigitChars 10 text.toList 0) = none :=
    Integer.ofInt?_eq_none_iff.mpr fun fits => Int.not_lt.mpr large fits.2
  rw [ofAtom, if_pos (Numeral.all_isDigit_iff.mpr numeral), outside]

/-- Reading goes on to the same verdict as the scan at the depth of its open lists, whatever it has
collected for them; by induction on the tokens that are left.
-/
theorem readOn_verdict (done : List Expr) (outer : List (List Expr)) (tokens : List Token)
    : (readOn done outer tokens).map (fun _ => ())
      = (tokens.foldlM Token.pass outer.length >>= settle) := by
  induction tokens generalizing done outer with
  | nil => cases outer <;> rfl
  | cons token rest ih =>
      rw [List.foldlM_cons]
      cases token with
      | opening => exact ih [] (done :: outer)
      | closing =>
          cases outer with
          | nil => rfl
          | cons above outer => exact ih (.list done.reverse :: above) outer
      | atom text =>
          rw [readOn, Token.pass]
          by_cases large : Numeral.Holds text ∧ integerBound ≤ Numeral.value text
          · rw [ofAtom_of_large large.1 large.2, if_pos large]
            rfl
          · obtain ⟨leaf, found⟩ := ofAtom_of_fits large
            rw [found, if_neg large]
            exact ih (leaf :: done) outer

/-- The verdict of reading a text, which has forms or an error and never both, is that of the scan
over its tokens.
-/
theorem read_verdict (text : String)
    : (read text).map (fun _ => ()) = verdict (Token.ofText text) :=
  readOn_verdict [] [] (Token.ofText text)

end Expr

end MiniLisp
