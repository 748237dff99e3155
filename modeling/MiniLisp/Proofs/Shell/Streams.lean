import Mathlib.Data.String.Basic
import MiniLisp.Shell.Plain

/-! Streams of lines: texts that fit on one line come back from a stream as they went in.
A line feed or carriage return among the bytes of a text is one among its characters, since every
byte of a longer code has its highest bit set.
-/

namespace MiniLisp

namespace Text

-----------------------------------------------------------------------------------------
-- Bytes of texts
-----------------------------------------------------------------------------------------

theorem encode_append (text more : String) : encode (text ++ more) = encode text ++ encode more := by
  simp [encode, String.toByteArray_append]

theorem encode_eq_flatMap (text : String)
    : encode text = text.toList.flatMap String.utf8EncodeChar := by
  unfold encode
  rw [← String.utf8Encode_toList]
  simp [List.utf8Encode]

/-- A byte below 128 in the code of a character is the character's number, by cases on the length of
the code.
-/
theorem toNat_of_mem_utf8EncodeChar {c : Char} {byte : UInt8}
    (member : byte ∈ String.utf8EncodeChar c) (small : byte.toNat < 128)
    : byte.toNat = c.toNat := by
  have large (number : Nat) (high : 128 ≤ number % 256) : ¬ (UInt8.ofNat number).toNat < 128 := by
    rw [UInt8.toNat_ofNat']
    omega
  revert member
  fun_cases String.utf8EncodeChar
  · next single =>
    intro member
    obtain rfl := List.mem_singleton.mp member
    rw [UInt8.toNat_ofNat']
    exact Nat.mod_eq_of_lt (by omega)
  all_goals
    intro member
    simp only [List.mem_cons, List.not_mem_nil, or_false] at member
    refine absurd small ?_
  · rcases member with rfl | rfl <;> exact large _ (by omega)
  · rcases member with rfl | rfl | rfl <;> exact large _ (by omega)
  · rcases member with rfl | rfl | rfl | rfl <;> exact large _ (by omega)

/-- A character below 128 that a text does not have is not among its bytes. -/
theorem notMem_encode {text : String} {c : Char} (small : c.toNat < 128) (absent : c ∉ text.toList)
    : UInt8.ofNat c.toNat ∉ encode text := by
  have number : (UInt8.ofNat c.toNat).toNat = c.toNat := by
    rw [UInt8.toNat_ofNat']
    exact Nat.mod_eq_of_lt (by omega)
  rw [encode_eq_flatMap]
  intro member
  obtain ⟨other, among, code⟩ := List.mem_flatMap.mp member
  have same : c.toNat = other.toNat :=
    number.symm.trans (toNat_of_mem_utf8EncodeChar code (number.trans_lt small))
  rw [Char.toNat_inj.mp same] at absent
  exact absent among

-----------------------------------------------------------------------------------------
-- Lines
-----------------------------------------------------------------------------------------

/-- The text fits on one line: no character of it ends a line. -/
structure OneLine (text : String) : Prop where
  noLineFeed : '\n' ∉ text.toList
  noCarriageReturn : '\r' ∉ text.toList

/-- The texts on lines of their own. -/
def lines (texts : List String) : String :=
  String.join (texts.map (· ++ "\n"))

theorem pieces_line {line : Bytes} (whole : lineFeed ∉ line) (rest : Bytes)
    : pieces (line ++ lineFeed :: rest) = (line ++ [lineFeed]) :: pieces rest := by
  induction line with
  | nil => rw [List.nil_append, pieces, if_pos rfl, List.nil_append]
  | cons byte line ih =>
      rw [List.mem_cons, not_or] at whole
      rw [List.cons_append, pieces_cons_of_ne (Ne.symm whole.1), ih whole.2]
      rfl

theorem dropLastIf_of_notMem {byte : UInt8} {bytes : Bytes} (absent : byte ∉ bytes)
    : dropLastIf byte bytes = bytes :=
  if_neg fun last => absent (List.mem_of_getLast? last)

/-- A stream of texts on lines of their own is cut into these lines, by induction on the texts. -/
theorem pieces_lines {texts : List String} (each : ∀ text ∈ texts, OneLine text)
    : pieces (encode (lines texts)) = texts.map fun text => encode text ++ [lineFeed] := by
  induction texts with
  | nil => rfl
  | cons text rest ih =>
      rw [List.forall_mem_cons] at each
      have whole : lineFeed ∉ encode text := notMem_encode (by decide) each.1.noLineFeed
      have split
          : encode (lines (text :: rest)) = encode text ++ lineFeed :: encode (lines rest) := by
        rw [lines, List.map_cons, String.join_cons, encode_append, encode_append,
          List.append_assoc]
        rfl
      rw [split, pieces_line whole, ih each.2, List.map_cons]

end Text

namespace Shell

open Text

/-- The request in a line: a response to it, unless it quits. -/
def Request.ofLine (text : String) : Request :=
  if text = quitWord then quit else line text

/-- What a piece asks for that is a line and a line feed. -/
theorem Request.ofPiece_oneLine {text : String} (fits : OneLine text)
    : ofPiece (encode text ++ [lineFeed]) = ofLine text := by
  have plain : dropLastIf carriageReturn (encode text) = encode text :=
    dropLastIf_of_notMem (notMem_encode (by decide) fits.noCarriageReturn)
  have line : lineOf (encode text ++ [lineFeed]) = encode text := by
    rw [lineOf, List.getLast?_concat, if_pos rfl, List.dropLast_concat, plain]
  simp only [ofPiece, line, plain, decode?_encode, ofLine]

/-- What a stream of lines asks for, line by line. -/
theorem Request.ofStream_oneLine {texts : List String} (each : ∀ text ∈ texts, OneLine text)
    : ofStream (encode (lines texts)) = texts.map ofLine := by
  rw [ofStream, pieces_lines each, List.map_map]
  exact List.map_congr_left fun text member => ofPiece_oneLine (each text member)

/-- The requests of a stream of lines of which none quits. -/
theorem Request.ofStream_lines {texts : List String} (each : ∀ text ∈ texts, OneLine text)
    (others : quitWord ∉ texts)
    : Request.ofStream (encode (lines texts)) = texts.map .line := by
  rw [ofStream_oneLine each]
  refine List.map_congr_left fun text member => ?_
  exact if_neg (ne_of_mem_of_not_mem member others)

end Shell

end MiniLisp
