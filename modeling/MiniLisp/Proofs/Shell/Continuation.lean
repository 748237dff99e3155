import MiniLisp.Proofs.Shell.Drivers

/-! The plain shell over a stream in two parts.
Where a stream is cut behind a line feed, its requests are those of the parts. The second part is
answered where the first one leaves off, unless a request in the first ends the shell.
-/

namespace MiniLisp

namespace Text

/-- The stream consists of whole lines: it is empty, or a line feed ends it. -/
def WholeLines (stream : Bytes) : Prop :=
  stream = [] ∨ stream.getLast? = some lineFeed

instance (stream : Bytes) : Decidable (WholeLines stream) :=
  inferInstanceAs (Decidable (_ ∨ _))

/-- Whole lines without their first byte are whole lines. -/
theorem WholeLines.tail {byte : UInt8} {stream : Bytes} (whole : WholeLines (byte :: stream))
    : WholeLines stream := by
  cases stream with
  | nil => exact .inl rfl
  | cons next rest => exact .inr (by simpa [WholeLines] using whole)

/-- Whole lines do not end behind another byte than a line feed. -/
theorem WholeLines.tail_ne_nil {byte : UInt8} {stream : Bytes}
    (whole : WholeLines (byte :: stream)) (other : byte ≠ lineFeed)
    : stream ≠ [] := by
  rintro rfl
  exact other (by simpa [WholeLines] using whole)

theorem pieces_ne_nil {stream : Bytes} (some : stream ≠ []) : pieces stream ≠ [] := by
  intro none
  have nothing := flatten_pieces stream
  rw [none] at nothing
  exact some nothing.symm

/-- Whole lines are cut by themselves, whatever follows them; by induction on their bytes. -/
theorem WholeLines.pieces_append {front : Bytes} (whole : WholeLines front) (back : Bytes)
    : pieces (front ++ back) = pieces front ++ pieces back := by
  induction front with
  | nil => rfl
  | cons byte front ih =>
      by_cases ends : byte = lineFeed
      · simp [pieces, ends, ih whole.tail]
      · have some : pieces front ≠ [] := pieces_ne_nil (whole.tail_ne_nil ends)
        obtain ⟨piece, more, cut⟩ := List.exists_cons_of_ne_nil some
        simp [pieces_cons_of_ne ends, ih whole.tail, cut]

/-- Bytes without a line feed are one piece, by induction on them. -/
theorem pieces_unended {line : Bytes} (unended : lineFeed ∉ line) (some : line ≠ [])
    : pieces line = [line] := by
  induction line with
  | nil => exact absurd rfl some
  | cons byte rest ih =>
      rw [List.mem_cons, not_or] at unended
      cases rest with
      | nil => simp [pieces, Ne.symm unended.1]
      | cons next more =>
          simp [pieces_cons_of_ne (Ne.symm unended.1), ih unended.2]

/-- A carriage return more or less does not make bytes a text, since it is one by itself. -/
theorem decode?_dropLastIf {bytes : Bytes} (undecodable : decode? bytes = none)
    : decode? (dropLastIf carriageReturn bytes) = none := by
  unfold dropLastIf
  split
  · next ended =>
    cases decoded : decode? bytes.dropLast with
    | none => rfl
    | some text =>
        have whole : bytes = encode (text ++ "\r") := by
          rw [encode_append, ← eq_encode_of_decode? decoded]
          exact (List.dropLast_append_getLast? _ ended).symm
        rw [whole, decode?_encode] at undecodable
        cases undecodable
  · exact undecodable

end Text

namespace Shell

open MiniLisp.Text

-----------------------------------------------------------------------------------------
-- Requests in two parts
-----------------------------------------------------------------------------------------

/-- The shell ends at a request in the stream. -/
def Stops (stream : Bytes) : Prop :=
  (Request.ofStream stream).any Request.ends = true

/-- The requests of whole lines come before the requests of what follows. -/
theorem Request.ofStream_append {front : Bytes} (whole : WholeLines front) (back : Bytes)
    : ofStream (front ++ back) = ofStream front ++ ofStream back := by
  simp only [ofStream, whole.pieces_append, List.map_append]

/-- A line that is no text asks for nothing, with or without a line feed behind it. -/
theorem Request.ofStream_undecodable {bad : Bytes} (undecodable : decode? bad = none)
    (oneLine : lineFeed ∉ bad) {tail : Bytes} (apart : ∀ byte ∈ tail.head?, byte = lineFeed)
    : ∃ more, ofStream (bad ++ tail) = .notText :: more := by
  have none : decode? (dropLastIf carriageReturn bad) = none := decode?_dropLastIf undecodable
  cases tail with
  | nil =>
      have some : bad ≠ [] := by
        rintro rfl
        cases undecodable.symm.trans (decode?_encode "")
      have line : lineOf bad = bad := if_neg fun last => oneLine (List.mem_of_getLast? last)
      refine ⟨[], ?_⟩
      simp [ofStream, pieces_unended oneLine some, ofPiece, line, none]
  | cons byte more =>
      obtain rfl := apart byte rfl
      refine ⟨ofStream more, ?_⟩
      simp [ofStream, pieces_line oneLine, ofPiece, lineOf, decode?_dropLastIf none]

-----------------------------------------------------------------------------------------
-- Streams in two parts
-----------------------------------------------------------------------------------------

/-- The plain shell, given this stream on a machine, finishes with this report and leaves the machine
like this.
-/
def PlainFinishes (env : FrameId) (machine : Machine) (stream : Bytes) (report : Report InputFault)
    (after : Machine)
    : Prop :=
  ∃ depth, (plain depth env stream).run machine = .ok (report, after)

section Streams

variable {front : Bytes} (whole : WholeLines front) {env : FrameId} {machine after : Machine}
  {report : Report InputFault}

include whole

/-- What follows whole lines that end the shell is of no effect. -/
theorem plainFinishes_of_stops (stops : Stops front) (back : Bytes)
    : PlainFinishes env machine (front ++ back) report after
      ↔ PlainFinishes env machine front report after := by
  simp only [PlainFinishes, plain, Request.ofStream_append whole, answer_append_of_ends stops]

/-- What follows whole lines that do not end the shell is answered from where they leave off, at a
depth that is enough for both.
-/
theorem plainFinishes_of_goesOn (goesOn : ¬Stops front) (back : Bytes)
    : PlainFinishes env machine (front ++ back) report after
      ↔ ∃ lines middle last,
          PlainFinishes env machine front ⟨lines, none⟩ middle
          ∧ PlainFinishes env middle back last after
          ∧ report = last.after lines := by
  have none : (Request.ofStream front).any Request.ends = false := by simpa [Stops] using goesOn
  simp only [PlainFinishes, plain, Request.ofStream_append whole, answer_append_eq_ok none]
  constructor
  · rintro ⟨depth, lines, middle, last, _, first, second, ended⟩
    obtain ⟨rfl, rfl⟩ := Prod.mk.inj ended
    exact ⟨lines, middle, last, ⟨depth, first⟩, ⟨depth, second⟩, rfl⟩
  · rintro ⟨lines, middle, last, ⟨depth, first⟩, ⟨depth', second⟩, rfl⟩
    have first' := answer_deeper (Nat.le_max_left depth depth') first
    have second' := answer_deeper (Nat.le_max_right depth depth') second
    exact ⟨max depth depth', lines, middle, last, after, first', second', rfl⟩

/-- A line that is no text ends the shell where the lines before it leave off. -/
theorem plainFinishes_of_undecodable (goesOn : ¬Stops front) {bad : Bytes}
    (undecodable : decode? bad = none) (oneLine : lineFeed ∉ bad) {tail : Bytes}
    (apart : ∀ byte ∈ tail.head?, byte = lineFeed)
    : PlainFinishes env machine (front ++ (bad ++ tail)) report after
      ↔ ∃ lines,
          PlainFinishes env machine front ⟨lines, none⟩ after
          ∧ report = ⟨lines, some .notText⟩ := by
  obtain ⟨more, requests⟩ := Request.ofStream_undecodable undecodable oneLine apart
  have fails (depth : Nat) (middle : Machine)
      : (plain depth env (bad ++ tail)).run middle = .ok (⟨[], some .notText⟩, middle) := by
    rw [plain, requests]
    rfl
  rw [plainFinishes_of_goesOn whole goesOn]
  constructor
  · rintro ⟨lines, middle, last, first, ⟨depth, second⟩, rfl⟩
    obtain ⟨rfl, rfl⟩ := Prod.mk.inj (Except.ok.inj ((fails depth middle).symm.trans second))
    exact ⟨lines, first, by simp [Report.after]⟩
  · rintro ⟨lines, first, rfl⟩
    exact ⟨lines, after, ⟨[], some .notText⟩, first, ⟨0, fails 0 after⟩, by simp [Report.after]⟩

end Streams

/-- The plain shell answers a stream as it comes. Behind whole lines that end the shell nothing has an
effect; behind others the rest of the stream is answered from where they leave off. What they have
shown and done stays if the next line is no text, which ends the shell.
-/
theorem plain_continues {front : Bytes} (whole : WholeLines front) (env : FrameId)
    (machine : Machine)
    : (Stops front
          → ∀ back report after,
              PlainFinishes env machine (front ++ back) report after
              ↔ PlainFinishes env machine front report after)
      ∧ (¬Stops front
          → ∀ back report after,
              PlainFinishes env machine (front ++ back) report after
              ↔ ∃ lines middle last,
                  PlainFinishes env machine front ⟨lines, none⟩ middle
                  ∧ PlainFinishes env middle back last after
                  ∧ report = last.after lines)
      ∧ (¬Stops front
          → ∀ bad tail,
              decode? bad = none
              → lineFeed ∉ bad
              → (∀ byte ∈ tail.head?, byte = lineFeed)
              → ∀ report after,
                  PlainFinishes env machine (front ++ (bad ++ tail)) report after
                  ↔ ∃ lines,
                      PlainFinishes env machine front ⟨lines, none⟩ after
                      ∧ report = ⟨lines, some .notText⟩) := by
  refine ⟨?stopped, ?continued, ?kept⟩
  case stopped =>
    intro stops back report after
    exact plainFinishes_of_stops whole stops back
  case continued =>
    intro goesOn back report after
    exact plainFinishes_of_goesOn whole goesOn back
  case kept =>
    intro goesOn bad tail undecodable oneLine apart report after
    exact plainFinishes_of_undecodable whole goesOn undecodable oneLine apart

/-- Behind a definition and a line with nothing but a carriage return, a line that is no text leaves
what was defined, and a line without a line feed is answered; behind a line that quits, a line that
is no text is of no effect.
-/
theorem definition_is_kept
    : WholeLines (encode "(define x 0)\n\r\n")
      ∧ WholeLines (encode "quit\r\n")
      ∧ ∃ middle after,
          middle.store = fresh.store.bind (Store.addGlobal ∅).1 "x" (.integer .zero)
          ∧ PlainFinishes (Store.addGlobal ∅).1 fresh
              (encode "(define x 0)\n\r\n" ++ ([0xFF] ++ encode "\n0")) ⟨[], some .notText⟩ middle
          ∧ PlainFinishes (Store.addGlobal ∅).1 fresh (encode "(define x 0)\n\r\n" ++ encode "0")
              ⟨["0"], none⟩ after
          ∧ PlainFinishes (Store.addGlobal ∅).1 fresh (encode "quit\r\n" ++ [0xFF]) ⟨[], none⟩
              fresh := by
  have defines : WholeLines (encode "(define x 0)\n\r\n") := by decide +kernel
  have quits : WholeLines (encode "quit\r\n") := by decide +kernel
  have front
      : Request.ofStream (encode "(define x 0)\n\r\n") = [.line "(define x 0)", .line ""] := by
    decide +kernel
  have back : Request.ofStream (encode "0") = [.line "0"] := by decide +kernel
  have quit : Request.ofStream (encode "quit\r\n") = [.quit] := by decide +kernel
  have goesOn : ¬Stops (encode "(define x 0)\n\r\n") := by simp [Stops, front, Request.ends]
  have stops : Stops (encode "quit\r\n") := by simp [Stops, quit, Request.ends]
  obtain ⟨middle, after, bound, first, second⟩
      : ∃ middle after,
          middle.store = fresh.store.bind (Store.addGlobal ∅).1 "x" (.integer .zero)
          ∧ PlainFinishes (Store.addGlobal ∅).1 fresh (encode "(define x 0)\n\r\n") ⟨[], none⟩ middle
          ∧ PlainFinishes (Store.addGlobal ∅).1 middle (encode "0") ⟨["0"], none⟩ after := by
    have definition
        : Expr.read "(define x 0)" = .ok [.form .definition [.symbol "x", .number .zero]] := by
      decide +kernel
    have nothing : Expr.read "" = .ok [] := by decide +kernel
    have number : Expr.read "0" = .ok [.number .zero] := by decide +kernel
    simp only [PlainFinishes, plain, front, back, answer, respond, Session.runText,
      Session.readText, definition, nothing, number]
    exact ⟨_, _, rfl, ⟨2, rfl⟩, ⟨1, rfl⟩⟩
  obtain ⟨_, continued, kept⟩ := plain_continues defines (Store.addGlobal ∅).1 fresh
  obtain ⟨stopped, _, _⟩ := plain_continues quits (Store.addGlobal ∅).1 fresh
  refine ⟨defines, quits, middle, after, bound, ?_, ?_, ?_⟩
  · refine (kept goesOn [0xFF] _ (by decide +kernel) (by decide) ?_ _ _).mpr ⟨[], first, rfl⟩
    decide +kernel
  · exact (continued goesOn _ _ _).mpr ⟨[], middle, _, first, second, rfl⟩
  · refine (stopped stops _ _ _).mpr ⟨0, ?_⟩
    rw [plain, quit]
    rfl

end Shell

end MiniLisp
