import MiniLisp.Proofs.Shell.Scripts
import MiniLisp.Proofs.Shell.TextLines

/-! Line feeds with and without a carriage return before them.
In a stream the carriage return belongs to the end of a line, so the line is taken for the same text.
In a script it is a blank beside the line feed, which is one too, so the tokens are the same.
-/

namespace MiniLisp

namespace Text

/-- The characters with a carriage return before every line feed. -/
def withReturns (chars : List Char) : List Char :=
  chars.flatMap fun c => if c = '\n' then ['\r', '\n'] else [c]

/-- The text with a carriage return before every line feed. -/
def returned (text : String) : String :=
  String.ofList (withReturns text.toList)

theorem withReturns_lineFeed (rest : List Char)
    : withReturns ('\n' :: rest) = '\r' :: '\n' :: withReturns rest := by
  simp [withReturns]

theorem withReturns_cons_of_ne {c : Char} (other : c ≠ '\n') (rest : List Char)
    : withReturns (c :: rest) = c :: withReturns rest := by
  simp [withReturns, other]

-----------------------------------------------------------------------------------------
-- Tokens
-----------------------------------------------------------------------------------------

/-- An atom ends where it did, and the text goes on behind it as it did; by induction on the
characters.
-/
theorem span_withReturns (chars : List Char)
    : (withReturns chars).takeWhile Token.isAtomChar = chars.takeWhile Token.isAtomChar
      ∧ (withReturns chars).dropWhile Token.isAtomChar
        = withReturns (chars.dropWhile Token.isAtomChar) := by
  induction chars with
  | nil => exact ⟨rfl, rfl⟩
  | cons c rest ih =>
      by_cases ends : c = '\n'
      · subst ends
        have lineFeed : Token.isAtomChar '\n' = false := by decide
        have carriageReturn : Token.isAtomChar '\r' = false := by decide
        simp [withReturns_lineFeed, lineFeed, carriageReturn]
      · by_cases inside : Token.isAtomChar c = true
        · simp [withReturns_cons_of_ne ends, inside, ih]
        · simp [withReturns_cons_of_ne ends, inside]

/-- A carriage return beside a line feed belongs to no token, by recursion along the scan. -/
theorem ofChars_withReturns (chars : List Char)
    : Token.ofChars (withReturns chars) = Token.ofChars chars := by
  fun_induction Token.ofChars chars with
  | case1 => exact Token.ofChars_nil
  | case2 rest ih => rw [withReturns_cons_of_ne (by decide), Token.ofChars_opening, ih]
  | case3 rest _ ih => rw [withReturns_cons_of_ne (by decide), Token.ofChars_closing, ih]
  | case4 c rest _ _ blank ih =>
      by_cases ends : c = '\n'
      · subst ends
        have blank' : isBlank '\r' = true := by decide
        rw [withReturns_lineFeed, Token.ofChars_blank blank', Token.ofChars_blank blank, ih]
      · rw [withReturns_cons_of_ne ends, Token.ofChars_blank blank, ih]
  | case5 c rest opens closes blank ih =>
      have inside : Token.isAtomChar c = true := by simp [Token.isAtomChar, opens, closes, blank]
      have other : c ≠ '\n' := by
        rintro rfl
        exact blank (by decide)
      obtain ⟨taken, dropped⟩ := span_withReturns rest
      rw [withReturns_cons_of_ne other, Token.ofChars_atomChar inside, taken, dropped, ih]

theorem read_returned (text : String) : Expr.read (returned text) = Expr.read text := by
  rw [Expr.read, Token.ofText, returned, String.toList_ofList, ofChars_withReturns]
  rfl

-----------------------------------------------------------------------------------------
-- Lines
-----------------------------------------------------------------------------------------

/-- The line with a carriage return before its line feed, if it has one. -/
def Line.withReturn (line : Line) : Line :=
  { line with chars := if line.ended then line.chars ++ ['\r'] else line.chars }

/-- The lines with carriage returns are those without, each with its own; by induction on the
characters.
-/
theorem linesOf_withReturns (chars : List Char)
    : linesOf (withReturns chars) = (linesOf chars).map Line.withReturn := by
  induction chars with
  | nil => rfl
  | cons c rest ih =>
      by_cases ends : c = '\n'
      · subst ends
        simp [withReturns_lineFeed, linesOf, ih, Line.withReturn]
      · rw [withReturns_cons_of_ne ends, linesOf_cons_of_ne ends, linesOf_cons_of_ne ends, ih]
        cases linesOf rest with
        | nil => rfl
        | cons line more =>
            obtain ⟨inside, ended⟩ := line
            cases ended <;> rfl

/-- A line without carriage returns is taken for what it is, with or without one before its line
feed.
-/
theorem Line.taken_withReturn {line : Line} (plain : '\r' ∉ line.chars)
    : line.withReturn.taken = line.taken := by
  have unchanged : withoutReturn line.chars = line.chars :=
    if_neg fun last => plain (List.mem_of_getLast? last)
  have dropped : withoutReturn (line.chars ++ ['\r']) = line.chars := by
    rw [withoutReturn, List.getLast?_concat, if_pos rfl, List.dropLast_concat]
  obtain ⟨chars, ended⟩ := line
  cases ended with
  | false => rfl
  | true => simp only [withReturn, taken, if_true, unchanged, dropped]

end Text

namespace Shell

open Text Session

/-- The plain shell is asked for the same with carriage returns, line by line. -/
theorem Request.ofStream_returned {text : String} (plain : '\r' ∉ text.toList)
    : ofStream (encode (returned text)) = ofStream (encode text) := by
  rw [ofStream_encode, ofStream_encode, returned, String.toList_ofList, linesOf_withReturns,
    List.map_map]
  refine List.map_congr_left fun line member => congrArg ofLine (Line.taken_withReturn ?_)
  exact fun inside => plain (mem_of_mem_linesOf member inside).1

-----------------------------------------------------------------------------------------
-- Scripts
-----------------------------------------------------------------------------------------

section Scripts

variable (depth : Nat) (env : FrameId)

/-- Texts that are read alike come to the same outcomes and leave the same store. -/
theorem runText_alike {text text' : String} (same : Expr.read text = Expr.read text')
    {machine other : Machine} (stores : machine.store = other.store)
    : EndTogether False False
        (fun left right => left.1 = right.1 ∧ left.2.store = right.2.store)
        ((runText depth text env).run machine) ((runText depth text' env).run other) := by
  rw [runText_run, runText_run, same]
  cases Expr.read text' with
  | error error => exact .finished ⟨rfl, stores⟩
  | ok forms =>
      let noted : Machine := { machine with trace := machine.trace.push (.read forms.length text) }
      let noted' : Machine := { other with trace := other.trace.push (.read forms.length text') }
      have storesNoted : noted.store = noted'.store := stores
      exact (runForms_alike depth env forms storesNoted text text').imp
        fun left right together => ⟨together.1, together.2.1⟩

/-- A script that can be had is reported as its text runs. -/
theorem runScript_text (path text : String) (machine : Machine)
    : (runScript depth env path (.ok (encode text))).run machine
      = ((runText depth text env).run
            { machine with trace := machine.trace.push (.load path) }).bind fun ended =>
          .ok (scriptReport path ended.1, ended.2) := by
  rw [runScript, Run.run_bind, Run.run_emit]
  simp only [decode?_encode, Run.run_bind]
  rcases (runText depth text env).run _ with _ | ⟨_, _⟩ <;> rfl

/-- Scripts that are read alike come to the same report and leave the same store. -/
theorem runScript_alike (path : String) {text text' : String}
    (same : Expr.read text = Expr.read text') (machine : Machine)
    : EndTogether False False
        (fun left right => left.1 = right.1 ∧ left.2.store = right.2.store)
        ((runScript depth env path (.ok (encode text))).run machine)
        ((runScript depth env path (.ok (encode text'))).run machine) := by
  rw [runScript_text, runScript_text]
  let loaded : Machine := { machine with trace := machine.trace.push (.load path) }
  refine (runText_alike depth env same (@rfl _ loaded.store)).bind fun left right together => ?_
  exact .finished ⟨congrArg (scriptReport path) together.1, together.2⟩

end Scripts

/-- A text without carriage returns is read alike with one before each line feed. The plain shell
does the same over both, and a script with the one or the other comes to the same report and leaves
the same store, or neither comes to an end.
-/
theorem line_endings_unobservable {text : String} (plain : '\r' ∉ text.toList) (depth : Nat)
    (env : FrameId)
    : Expr.read (returned text) = Expr.read text
      ∧ Shell.plain depth env (encode (returned text)) = Shell.plain depth env (encode text)
      ∧ ∀ path machine,
          EndTogether False False
            (fun left right => left.1 = right.1 ∧ left.2.store = right.2.store)
            ((runScript depth env path (.ok (encode (returned text)))).run machine)
            ((runScript depth env path (.ok (encode text))).run machine) := by
  refine ⟨read_returned text, ?_, fun path machine => ?_⟩
  · rw [Shell.plain, Shell.plain, Request.ofStream_returned plain]
  · exact runScript_alike depth env path (read_returned text) machine

/-- A form that spans two lines, a line that quits and a last line without a line feed. -/
theorem returned_lines_quit_alike
    : returned "(+ 1\n2)\nquit\n1" = "(+ 1\r\n2)\r\nquit\r\n1"
      ∧ '\r' ∉ "(+ 1\n2)\nquit\n1".toList
      ∧ Expr.read "(+ 1\r\n2)\r\nquit\r\n1" = Expr.read "(+ 1\n2)\nquit\n1"
      ∧ plain 2 0 (encode "(+ 1\r\n2)\r\nquit\r\n1") = plain 2 0 (encode "(+ 1\n2)\nquit\n1")
      ∧ EndTogether False False
          (fun left right => left.1 = right.1 ∧ left.2.store = right.2.store)
          ((runScript 2 0 "a.scm" (.ok (encode "(+ 1\r\n2)\r\nquit\r\n1"))).run fresh)
          ((runScript 2 0 "a.scm" (.ok (encode "(+ 1\n2)\nquit\n1"))).run fresh) := by
  have lines : returned "(+ 1\n2)\nquit\n1" = "(+ 1\r\n2)\r\nquit\r\n1" := by decide
  have absent : '\r' ∉ "(+ 1\n2)\nquit\n1".toList := by decide
  obtain ⟨read, answered, scripts⟩ := line_endings_unobservable absent 2 0
  rw [lines] at read answered scripts
  exact ⟨lines, absent, read, answered, scripts "a.scm" fresh⟩

end Shell

end MiniLisp
