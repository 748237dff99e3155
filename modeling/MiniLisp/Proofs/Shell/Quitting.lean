import MiniLisp.Proofs.Shell.Drivers
import MiniLisp.Proofs.Shell.TextLines

/-! Which line ends the plain shell.
It is the first that is the quitting word, up to one carriage return; and one that has two of them
before its line feed, as both the cut into lines and the shell drop one. All lines before it are
answered, whatever they are.
-/

namespace MiniLisp

namespace Text

/-- What is left without a carriage return was there, or was there before one. -/
theorem withoutReturn_eq_iff {chars front : List Char}
    : withoutReturn chars = front
      ↔ (chars = front ∧ front.getLast? ≠ some '\r') ∨ chars = front ++ ['\r'] := by
  unfold withoutReturn
  constructor
  · rintro rfl
    split
    · next last => exact .inr (List.dropLast_append_getLast? _ last).symm
    · next other => exact .inl ⟨rfl, other⟩
  · rintro (⟨rfl, other⟩ | rfl)
    · exact if_neg other
    · rw [List.getLast?_concat, if_pos rfl, List.dropLast_concat]

/-- A carriage return at the end belongs to no token. -/
theorem ofChars_withoutReturn (chars : List Char)
    : Token.ofChars (withoutReturn chars) = Token.ofChars chars := by
  rcases withoutReturn_eq_iff.mp (@rfl _ (withoutReturn chars)) with ⟨same, _⟩ | same
  · rw [← same]
  · have blank : isBlank '\r' = true := by decide
    have boundary : Token.AtBoundary ['\r'] :=
      Token.atBoundary_cons (Token.isAtomChar_of_isBlank blank) []
    have scanned := Token.scans_ofChars (withoutReturn chars) ['\r'] boundary
    rw [← same, Token.ofChars_blank blank, Token.ofChars_nil, List.append_nil] at scanned
    exact scanned.symm

/-- A line is read as what the plain shell takes it for. -/
theorem Line.read_taken (line : Line) : Expr.read line.taken = Expr.read line.text := by
  obtain ⟨chars, ended⟩ := line
  cases ended <;>
    simp [Expr.read, Token.ofText, taken, text, ofChars_withoutReturn]

end Text

namespace Shell

open Text

/-- The line is the quitting word, up to one carriage return at its end. -/
def IsQuit (line : Line) : Prop :=
  String.ofList (withoutReturn line.chars) = quitWord

instance (line : Line) : Decidable (IsQuit line) :=
  inferInstanceAs (Decidable (_ = _))

/-- The quitting word with two carriage returns before its line feed. -/
def quitReturnedTwice : Line :=
  ⟨(quitWord ++ "\r\r").toList, true⟩

/-- The lines that are taken for the quitting word, by what is dropped at their ends. -/
theorem taken_eq_quitWord_iff {line : Line}
    : line.taken = quitWord ↔ IsQuit line ∨ line = quitReturnedTwice := by
  obtain ⟨chars, ended⟩ := line
  have spelled (front : List Char) : String.ofList front = quitWord ↔ front = quitWord.toList := by
    rw [← String.toList_inj, String.toList_ofList]
  simp only [Line.taken, IsQuit, spelled, quitReturnedTwice, Line.mk.injEq]
  cases ended with
  | false => simp
  | true =>
      have plain : quitWord.toList.getLast? ≠ some '\r' := by decide
      have once : (quitWord.toList ++ ['\r']).getLast? = some '\r' := List.getLast?_concat
      have twice : (quitWord ++ "\r\r").toList = quitWord.toList ++ ['\r'] ++ ['\r'] := by decide
      simp only [if_true, and_true, twice]
      rw [@withoutReturn_eq_iff (withoutReturn chars),
        @withoutReturn_eq_iff chars (quitWord.toList ++ ['\r'])]
      simp [plain, once]

/-- Responds to texts in order, whatever comes of them. -/
def respondEach (depth : Nat) (env : FrameId) (texts : List String) : Run (List String) := do
  return (← texts.mapM (respond depth env false)).flatten

/-- Lines are answered up to the first that is the quitting word, by induction on them. -/
theorem answer_ofLine (depth : Nat) (env : FrameId) (texts : List String)
    : answer depth env (texts.map Request.ofLine)
      = (fun shown => ⟨shown, none⟩)
          <$> respondEach depth env (texts.takeWhile fun text => text ≠ quitWord) := by
  induction texts with
  | nil => rfl
  | cons text rest ih =>
      by_cases quits : text = quitWord
      · simp [Request.ofLine, quits, answer, respondEach]
      · simp only [List.map_cons, Request.ofLine, quits, if_false, answer]
        rw [ih]
        simp [respondEach, quits, Report.after]

/-- The plain shell, given a text, answers the lines before the first one that is the quitting word
up to one carriage return, or that word with two carriage returns before its line feed; without such
a line it answers all. Lines are read as they stand.
-/
theorem plain_answers_up_to_quit (text : String) (depth : Nat) (env : FrameId)
    : plain depth env (encode text)
        = (fun shown => ⟨shown, none⟩)
            <$> respondEach depth env
              (((linesOf text.toList).takeWhile fun line =>
                ¬IsQuit line ∧ line ≠ quitReturnedTwice).map Line.taken)
      ∧ ∀ line : Line, Expr.read line.taken = Expr.read line.text := by
  refine ⟨?_, Line.read_taken⟩
  have requests
      : Request.ofStream (encode text)
        = ((linesOf text.toList).map Line.taken).map Request.ofLine := by
    rw [Request.ofStream_encode, List.map_map]
    rfl
  have goesOn (line : Line)
      : decide (line.taken ≠ quitWord) = decide (¬IsQuit line ∧ line ≠ quitReturnedTwice) := by
    rw [decide_eq_decide, ne_eq, taken_eq_quitWord_iff, not_or]
  rw [plain, requests, answer_ofLine, List.takeWhile_map]
  simp only [Function.comp_def, goesOn]

/-- Up to one carriage return, the first line is not the quitting word. It would be answered with an
error and the second line with its value, but it ends the shell, and neither is answered.
-/
theorem quit_returned_twice_ends_plain
    : (∀ line ∈ linesOf "quit\r\r\n1\n".toList, ¬IsQuit line)
      ∧ (∃ after,
          (respondEach 1 (Store.addGlobal ∅).1
              ((linesOf "quit\r\r\n1\n".toList).map Line.taken)).run fresh
          = .ok (["Error: undefined name: quit", "1"], after))
      ∧ (plain 1 (Store.addGlobal ∅).1 (encode "quit\r\r\n1\n")).run fresh
        = .ok (⟨[], none⟩, fresh) := by
  have cut : linesOf "quit\r\r\n1\n".toList = [quitReturnedTwice, ⟨['1'], true⟩] := by decide
  refine ⟨by decide, ?_, ?_⟩
  · have word : Expr.Readable (.symbol "quit") :=
      have accepted : Expr.read "quit" = .ok [.symbol "quit"] := by decide +kernel
      Expr.readable_of_read accepted _ List.mem_cons_self
    have number : Expr.Readable (.number .one) :=
      have accepted : Expr.read "1" = .ok [.number .one] := by decide +kernel
      Expr.readable_of_read accepted _ List.mem_cons_self
    have unbound : fresh.store.lookup? 0 "quit" = none := by
      rw [Store.lookup?_eq]
      rfl
    have undefined
        : (evaluate 1 (.symbol "quit") 0).on fresh
          = .ok (.error (.undefinedName "quit"),
              { fresh with trace := fresh.trace.push (.eval (.symbol "quit")) }) := by
      simp [evaluate, Eval.step, Eval.on_bind, Eval.on_fetch, unbound]
    have value
        : (evaluate 1 (.number .one) 0).on fresh
          = .ok (.ok (.integer .one),
              { fresh with trace := fresh.trace.push (.eval (.number .one)) }) :=
      rfl
    obtain ⟨trace, first⟩ := respond_of_evaluate word undefined (@rfl _ fresh.store)
    obtain ⟨trace', second⟩ :=
      respond_of_evaluate number value (@rfl _ (Machine.mk fresh.store trace).store)
    have taken : [quitReturnedTwice, ⟨['1'], true⟩].map Line.taken
        = [(Expr.symbol "quit").text, (Expr.number .one).text] := by decide +kernel
    refine ⟨⟨fresh.store, trace'⟩, ?_⟩
    have both : (respondEach 1 0 [(Expr.symbol "quit").text, (Expr.number .one).text]).run fresh
        = .ok (["Error: undefined name: quit", "1"], ⟨fresh.store, trace'⟩) := by
      simp only [respondEach, List.mapM_cons, List.mapM_nil, Run.run_bind, first, second,
        Run.run_pure]
      refine congrArg (fun shown => Except.ok (shown, _)) ?_
      decide +kernel
    rw [cut, taken]
    exact both
  · have requests
        : Request.ofStream (encode "quit\r\r\n1\n") = [.quit, .line "1"] := by decide +kernel
    rw [plain, requests]
    rfl

end Shell

end MiniLisp
