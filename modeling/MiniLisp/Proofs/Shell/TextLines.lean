import MiniLisp.Proofs.Reading.Joining
import MiniLisp.Proofs.Shell.Streams

/-! The lines of a text, and what they ask of the plain shell.
The bytes of a text are cut where its characters are, since the byte of a line feed is no part of a
longer code. Carriage returns at the end of a line are dropped by the cut and once more by the shell.
-/

namespace MiniLisp

namespace Text

-----------------------------------------------------------------------------------------
-- Texts cut at line feeds
-----------------------------------------------------------------------------------------

/-- A line of a text: the characters before its end, and whether a line feed ends it. -/
structure Line where
  chars : List Char
  ended : Bool
deriving DecidableEq

/-- Characters cut at every line feed. What follows the last one is a line unless it is empty. -/
def linesOf : List Char → List Line
  | [] => []
  | c :: rest =>
      if c = '\n' then ⟨[], true⟩ :: linesOf rest
      else
        match linesOf rest with
        | [] => [⟨[c], false⟩]
        | line :: more => ⟨c :: line.chars, line.ended⟩ :: more

/-- Characters without one carriage return at their end. -/
def withoutReturn (chars : List Char) : List Char :=
  if chars.getLast? = some '\r' then chars.dropLast else chars

namespace Line

/-- The line with its line feed, in UTF-8. -/
def bytes (line : Line) : Bytes :=
  encode (String.ofList line.chars) ++ if line.ended then [lineFeed] else []

/-- The line as it stands. -/
def text (line : Line) : String :=
  String.ofList line.chars

/-- What the plain shell takes the line for. A carriage return belongs to the line feed behind it,
and one more is dropped.
-/
def taken (line : Line) : String :=
  String.ofList (withoutReturn (if line.ended then withoutReturn line.chars else line.chars))

end Line

theorem linesOf_cons_of_ne {c : Char} (other : c ≠ '\n') (rest : List Char)
    : linesOf (c :: rest)
      = ⟨c :: ((linesOf rest).headD ⟨[], false⟩).chars, ((linesOf rest).headD ⟨[], false⟩).ended⟩
          :: (linesOf rest).tail := by
  rw [linesOf, if_neg other]
  cases linesOf rest <;> rfl

/-- The characters of a line are among those of the text, and none is a line feed; by induction on
the text.
-/
theorem mem_of_mem_linesOf {chars : List Char} {line : Line} (member : line ∈ linesOf chars)
    {c : Char} (inside : c ∈ line.chars)
    : c ∈ chars ∧ c ≠ '\n' := by
  induction chars generalizing line with
  | nil => cases member
  | cons first rest ih =>
      rw [linesOf] at member
      split at member
      · rcases List.mem_cons.mp member with rfl | later
        · cases inside
        · exact (ih later inside).imp_left (List.mem_cons_of_mem first)
      · next other =>
        cases cut : linesOf rest with
        | nil =>
            rw [cut] at member
            obtain rfl := List.mem_singleton.mp member
            obtain rfl := List.mem_singleton.mp inside
            exact ⟨List.mem_cons_self, other⟩
        | cons next more =>
            rw [cut] at member ih
            rcases List.mem_cons.mp member with rfl | later
            · rcases List.mem_cons.mp inside with rfl | further
              · exact ⟨List.mem_cons_self, other⟩
              · exact (ih List.mem_cons_self further).imp_left (List.mem_cons_of_mem first)
            · exact (ih (List.mem_cons_of_mem next later) inside).imp_left
                (List.mem_cons_of_mem first)

-----------------------------------------------------------------------------------------
-- Bytes cut where the text is
-----------------------------------------------------------------------------------------

theorem encode_concat (front back : List Char)
    : encode (String.ofList (front ++ back))
      = encode (String.ofList front) ++ encode (String.ofList back) := by
  rw [String.ofList_append, encode_append]

/-- A character is at least one byte, as no bytes are the empty text. -/
theorem encode_singleton_ne_nil (c : Char) : encode (String.ofList [c]) ≠ [] := by
  intro none
  have decoded := decode?_encode (String.ofList [c])
  rw [none, show ([] : Bytes) = encode "" from rfl, decode?_encode] at decoded
  exact absurd (Option.some.inj decoded) (by simp)

/-- Bytes among which no line ends belong to the piece of what follows them, by induction on them. -/
theorem pieces_append_of_notMem {bytes : Bytes} (some : bytes ≠ []) (whole : lineFeed ∉ bytes)
    (rest : Bytes)
    : pieces (bytes ++ rest) = (bytes ++ (pieces rest).headD []) :: (pieces rest).tail := by
  induction bytes with
  | nil => exact absurd rfl some
  | cons byte bytes ih =>
      rw [List.mem_cons, not_or] at whole
      rw [List.cons_append, pieces_cons_of_ne (Ne.symm whole.1)]
      cases bytes with
      | nil => rfl
      | cons next more => rw [ih (List.cons_ne_nil next more) whole.2]; rfl

/-- The bytes of a text are cut into the bytes of its lines, by induction on the text. -/
theorem pieces_encode (chars : List Char)
    : pieces (encode (String.ofList chars)) = (linesOf chars).map Line.bytes := by
  induction chars with
  | nil => rfl
  | cons c rest ih =>
      have split := encode_concat [c] rest
      rw [List.singleton_append] at split
      by_cases ends : c = '\n'
      · subst ends
        have code : encode (String.ofList ['\n']) = [lineFeed] := by decide
        rw [split, code, List.singleton_append, pieces, if_pos rfl, ih, linesOf, if_pos rfl]
        rfl
      · have whole : lineFeed ∉ encode (String.ofList [c]) :=
          notMem_encode (c := '\n') (by decide) (by simpa using Ne.symm ends)
        rw [split, pieces_append_of_notMem (encode_singleton_ne_nil c) whole, ih,
          linesOf_cons_of_ne ends]
        cases linesOf rest with
        | nil => rfl
        | cons line more =>
            have joined := encode_concat [c] line.chars
            rw [List.singleton_append] at joined
            simp only [List.map_cons, List.headD_cons, List.tail_cons, Line.bytes, joined,
              List.append_assoc]

/-- A carriage return at the end of a text is one at the end of its bytes. -/
theorem dropLastIf_encode (chars : List Char)
    : dropLastIf carriageReturn (encode (String.ofList chars))
      = encode (String.ofList (withoutReturn chars)) := by
  rcases List.eq_nil_or_concat chars with rfl | ⟨front, c, rfl⟩
  · rfl
  rw [List.concat_eq_append, dropLastIf, withoutReturn, List.getLast?_concat, encode_concat]
  by_cases returns : c = '\r'
  · subst returns
    have code : encode (String.ofList ['\r']) = [carriageReturn] := by decide
    rw [code, List.getLast?_concat, if_pos rfl, if_pos rfl, List.dropLast_concat,
      List.dropLast_concat]
  · have absent : carriageReturn ∉ encode (String.ofList [c]) :=
      notMem_encode (c := '\r') (by decide) (by simpa using Ne.symm returns)
    have other
        : (encode (String.ofList front) ++ encode (String.ofList [c])).getLast?
          ≠ some carriageReturn := by
      rw [List.getLast?_append_of_ne_nil _ (encode_singleton_ne_nil c)]
      exact fun last => absent (List.mem_of_getLast? last)
    rw [if_neg other, if_neg (by simpa using returns), encode_concat]

end Text

namespace Shell

open Text

-----------------------------------------------------------------------------------------
-- What lines ask for
-----------------------------------------------------------------------------------------

/-- A line asks for what it is taken for. -/
theorem Request.ofPiece_bytes {line : Line} (oneLine : '\n' ∉ line.chars)
    : ofPiece line.bytes = ofLine line.taken := by
  obtain ⟨chars, ended⟩ := line
  have whole : lineFeed ∉ encode (String.ofList chars) :=
    notMem_encode (c := '\n') (by decide) (by simpa using oneLine)
  cases ended with
  | true => simp [ofPiece, ofLine, Line.bytes, Line.taken, lineOf, dropLastIf_encode]
  | false =>
      have unended : (encode (String.ofList chars)).getLast? ≠ some lineFeed :=
        fun last => whole (List.mem_of_getLast? last)
      simp [ofPiece, ofLine, Line.bytes, Line.taken, lineOf, dropLastIf_encode, unended]

/-- What a text asks for, line by line. -/
theorem Request.ofStream_encode (text : String)
    : ofStream (encode text) = (linesOf text.toList).map fun line => ofLine line.taken := by
  have cut : pieces (encode text) = (linesOf text.toList).map Line.bytes := by
    rw [← pieces_encode, String.ofList_toList]
  rw [ofStream, cut, List.map_map]
  refine List.map_congr_left fun line member => ofPiece_bytes fun inside => ?_
  exact (mem_of_mem_linesOf member inside).2 rfl

end Shell

end MiniLisp
