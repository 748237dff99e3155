import MiniLisp.Proofs.Shell.Continuation
import MiniLisp.Proofs.Simulation.Agreement
import MiniLisp.Shell.Interactive

/-! The interactive shell and the plain shell: two loops over the same lines.
On any terminal that hands out the lines typed and then the end of input, they show the same and leave
the same, and the history has each line up to the one that quits, without repeats.
-/

namespace MiniLisp.Shell

open MiniLisp.Text

-----------------------------------------------------------------------------------------
-- Histories
-----------------------------------------------------------------------------------------

/-- Lines without each that equals the one just before it, given what comes before the first. -/
def withoutRepeats : Option String → List String → List String
  | _, [] => []
  | before, line :: rest =>
      if before = some line then withoutRepeats (some line) rest
      else line :: withoutRepeats (some line) rest

theorem getLast?_addUnique (history : List String) (line : String)
    : (addUnique history line).getLast? = some line := by
  unfold addUnique
  split
  · assumption
  · exact List.getLast?_concat

/-- A line that is kept in a history comes first among those that are. -/
theorem addUnique_append_withoutRepeats (history : List String) (line : String)
    (rest : List String)
    : addUnique history line ++ withoutRepeats (addUnique history line).getLast? rest
      = history ++ withoutRepeats history.getLast? (line :: rest) := by
  rw [getLast?_addUnique, addUnique, withoutRepeats]
  split
  · rfl
  · simp

-----------------------------------------------------------------------------------------
-- Terminals
-----------------------------------------------------------------------------------------

/-- What is relied on of a terminal, in terms of the lines that are still to be typed and of the
history: it reads these lines in order and then the end of input, it keeps a line in its history
unless that is the last one there, and neither has an effect on the other.
-/
structure Terminal.Lawful {State : Type} (terminal : Terminal State)
    (pending history : State → List String)
    : Prop where
  read_line
    : ∀ {state line rest},
        pending state = line :: rest
        → (terminal.read state).1 = .line line ∧ pending (terminal.read state).2 = rest
  read_end : ∀ {state}, pending state = [] → (terminal.read state).1 = .endOfInput
  history_read : ∀ state, history (terminal.read state).2 = history state
  pending_remember : ∀ line state, pending (terminal.remember line state) = pending state
  history_remember
    : ∀ line state, history (terminal.remember line state) = addUnique (history state) line

/-- The terminal in memory does what is relied on. -/
theorem Typing.lawful_terminal : Typing.terminal.Lawful Typing.pending Typing.history := by
  constructor
  case read_line =>
    rintro ⟨_, history⟩ line rest rfl
    exact ⟨rfl, rfl⟩
  case read_end =>
    rintro ⟨_, history⟩ rfl
    rfl
  case history_read =>
    rintro ⟨_ | ⟨line, rest⟩, history⟩ <;> rfl
  case pending_remember => exact fun line typing => rfl
  case history_remember => exact fun line typing => rfl

-----------------------------------------------------------------------------------------
-- Both loops in step
-----------------------------------------------------------------------------------------

section Steps

variable {State : Type} {terminal : Terminal State} {depth : Nat} {env : FrameId} {colour : Bool}
  {state : State}

/-- A session is over when the end of input is read. -/
theorem interact_end (ends : (terminal.read state).1 = .endOfInput) (turns : Nat)
    (machine : Machine)
    : (interact terminal depth env colour (turns + 1) state).run machine
      = .ok (([⟨.endOfInput, []⟩], (terminal.read state).2), machine) := by
  rcases read : terminal.read state with ⟨reading, next⟩
  obtain rfl : reading = .endOfInput := by simpa [read] using ends
  simp only [interact, read]
  rfl

/-- A session is over when a line quits. -/
theorem interact_quit (reads : (terminal.read state).1 = .line quitWord) (turns : Nat)
    (machine : Machine)
    : (interact terminal depth env colour (turns + 1) state).run machine
      = .ok (([⟨.line quitWord, []⟩], (terminal.read state).2), machine) := by
  rcases read : terminal.read state with ⟨reading, next⟩
  obtain rfl : reading = .line quitWord := by simpa [read] using reads
  simp only [interact, read, if_true]
  rfl

/-- Any other line is kept in the history, and the session goes on behind the response to it. -/
theorem interact_line {text : String} (reads : (terminal.read state).1 = .line text)
    (other : text ≠ quitWord) (turns : Nat) (machine : Machine)
    : (interact terminal depth env colour (turns + 1) state).run machine
      = ((respond depth env colour text).run machine).bind fun ended =>
          ((interact terminal depth env colour turns
              (terminal.remember text (terminal.read state).2)).run ended.2).bind fun last =>
            .ok ((⟨.line text, ended.1⟩ :: last.1.1, last.1.2), last.2) := by
  rcases read : terminal.read state with ⟨reading, next⟩
  obtain rfl : reading = .line text := by simpa [read] using reads
  simp only [interact, read, if_neg other]
  rfl

/-- A session and the answers to requests, in step: the same lines were shown, without a fault, and
the machines are the same; and these lines were added to the history that there was.
-/
structure InStep (history : State → List String) (before added : List String)
    (left : (List Exchange × State) × Machine) (right : Report InputFault × Machine)
    : Prop where
  lines : left.1.1.flatMap Exchange.responses = right.1.lines
  fault : right.1.fault = none
  machine : left.2 = right.2
  history : history left.1.2 = before ++ added

variable (depth env) in
/-- A session is in step with the requests in the lines typed, if it may take a turn for each and one
more; by induction on these lines.
-/
theorem interact_alike {pending history : State → List String}
    (lawful : terminal.Lawful pending history) {typed : List String}
    (toType : pending state = typed) (turns : Nat) (machine : Machine)
    : EndTogether (turns ≤ typed.length) False
        (InStep history (history state)
          (withoutRepeats (history state).getLast? (typed.takeWhile (· ≠ quitWord))))
        ((interact terminal depth env false turns state).run machine)
        ((answer depth env (typed.map Request.ofLine)).run machine) := by
  induction typed generalizing turns state machine with
  | nil =>
      cases turns with
      | zero => exact .firstStopped (Nat.zero_le _) _ _
      | succ turns =>
          rw [interact_end (lawful.read_end toType)]
          refine .finished ⟨rfl, rfl, rfl, ?_⟩
          simp [lawful.history_read, withoutRepeats]
  | cons line rest ih =>
      obtain ⟨reads, left⟩ := lawful.read_line toType
      cases turns with
      | zero => exact .firstStopped (Nat.zero_le _) _ _
      | succ turns =>
          by_cases quits : line = quitWord
          · subst quits
            rw [interact_quit reads]
            refine .finished ⟨rfl, rfl, rfl, ?_⟩
            simp [lawful.history_read, withoutRepeats]
          · have kept : (line :: rest).takeWhile (· ≠ quitWord)
                = line :: rest.takeWhile (· ≠ quitWord) := by
              simp [quits]
            have request : Request.ofLine line = .line line := if_neg quits
            rw [interact_line reads quits, List.map_cons, request, answer_line, kept]
            rcases (respond depth env false line).run machine with reason | ⟨shown, middle⟩
            · exact .stopped reason reason
            · let next := terminal.remember line (terminal.read state).2
              have toType' : pending next = rest := (lawful.pending_remember line _).trans left
              have history' : history next = addUnique (history state) line := by
                rw [lawful.history_remember, lawful.history_read]
              have enough : turns + 1 ≤ (line :: rest).length ↔ turns ≤ rest.length := by simp
              rw [enough]
              refine (ih toType' turns middle).bind fun left right together => ?_
              refine .finished ⟨?_, together.fault, together.machine, ?_⟩
              · simp [together.lines, Report.after]
              · rw [together.history, history', addUnique_append_withoutRepeats]

end Steps

/-- The interactive shell on a terminal, from this machine, is over with these exchanges. It leaves
the terminal and the machine like this.
-/
def SessionFinishes {State : Type} (terminal : Terminal State) (env : FrameId) (machine : Machine)
    (start : State) (ended : List Exchange × State) (after : Machine)
    : Prop :=
  ∃ depth turns, (interact terminal depth env false turns start).run machine = .ok (ended, after)

/-- A conversation is a session on the terminal in memory. -/
theorem converse_run (depth : Nat) (env : FrameId) (typed : List String) (machine : Machine)
    : (converse depth env typed).run machine
      = ((interact Typing.terminal depth env false (typed.length + 1) ⟨typed, []⟩).run machine).bind
          fun ended => .ok (⟨ended.1.1, ended.1.2.history⟩, ended.2) :=
  rfl

/-- A conversation over lines ends where the plain shell does that is given them, with what this
writes in response: one turn for each line and one for the end of input are enough.
-/
theorem converse_alike {typed : List String} (each : ∀ line ∈ typed, OneLine line) (env : FrameId)
    (machine : Machine)
    : FinishTogether
        (fun conversation after =>
          ∃ depth, (converse depth env typed).run machine = .ok (conversation, after))
        (PlainFinishes env machine (encode (lines typed)))
        fun conversation after report after' =>
          conversation.exchanges.flatMap Exchange.responses = report.lines
          ∧ after = after'
          ∧ conversation.history = withoutRepeats none (typed.takeWhile (· ≠ quitWord)) := by
  refine finishTogether_of_ends fun depth => ?_
  have alike := interact_alike depth env Typing.lawful_terminal
    (@rfl _ (Typing.pending ⟨typed, []⟩)) (typed.length + 1) machine
  rw [converse_run, plain, Request.ofStream_oneLine each]
  revert alike
  generalize (interact Typing.terminal depth env false _ _).run machine = session
  generalize (answer depth env _).run machine = answers
  intro alike
  cases alike with
  | finished together => exact .finished ⟨together.lines, together.machine, together.history⟩
  | stopped reason other => exact .stopped reason other
  | firstStopped allowed => exact absurd allowed (Nat.not_succ_le_self typed.length)
  | secondStopped allowed => exact allowed.elim

/-- The interactive shell and the plain shell agree. Given the same lines, each on a line of its own
in a stream, one finishes where the other does, without a fault; what they write in response is the
same line by line, and so is the machine that they leave. The history then has the lines that come
before the one that quits, without each that equals the one just before it.
-/
theorem interactive_and_plain_agree {State : Type} {terminal : Terminal State}
    {pending history : State → List String} (lawful : terminal.Lawful pending history)
    (start : State) (each : ∀ line ∈ pending start, OneLine line) (env : FrameId)
    (machine : Machine)
    : FinishTogether (SessionFinishes terminal env machine start)
        (PlainFinishes env machine (encode (lines (pending start))))
        fun ended after report after' =>
          ended.1.flatMap Exchange.responses = report.lines
          ∧ report.fault = none
          ∧ after = after'
          ∧ history ended.2
            = history start
              ++ withoutRepeats (history start).getLast?
                  ((pending start).takeWhile (· ≠ quitWord)) := by
  have alike (depth turns : Nat) :=
    interact_alike depth env lawful (@rfl _ (pending start)) turns machine
  simp only [← Request.ofStream_oneLine each] at alike
  constructor
  · rintro ended after ⟨depth, turns, finished⟩
    have both := alike depth turns
    rw [finished] at both
    obtain ⟨⟨report, after'⟩, answered, together⟩ := both.exists_right not_false
    exact ⟨report, after', ⟨depth, answered⟩, together.lines, together.fault, together.machine,
      together.history⟩
  · rintro report after' ⟨depth, answered⟩
    have both := alike depth ((pending start).length + 1)
    rw [plain] at answered
    rw [answered] at both
    obtain ⟨⟨ended, after⟩, finished, together⟩ := both.exists_left (by omega)
    exact ⟨ended, after, ⟨depth, _, finished⟩, together.lines, together.fault, together.machine,
      together.history⟩

/-- Of lines typed in memory, one is repeated, one cannot be read, one is empty, and one quits before
the last.
-/
theorem repeated_line_is_kept_once
    : Typing.terminal.Lawful Typing.pending Typing.history
      ∧ (∀ line ∈ ["0", "0", "(", "", "quit", "0"], OneLine line)
      ∧ ∃ after ended,
          PlainFinishes (Store.addGlobal ∅).1 fresh (encode "0\n0\n(\n\nquit\n0\n")
              ⟨["0", "0", "Error: read error: unmatched open paren"], none⟩ after
          ∧ SessionFinishes Typing.terminal (Store.addGlobal ∅).1 fresh
              ⟨["0", "0", "(", "", "quit", "0"], []⟩ ended after
          ∧ ended.1.flatMap Exchange.responses
            = ["0", "0", "Error: read error: unmatched open paren"]
          ∧ ended.2.history = ["0", "(", ""] := by
  have each : ∀ line ∈ ["0", "0", "(", "", "quit", "0"], OneLine line := by
    simp only [List.forall_mem_cons]
    refine ⟨?_, ?_, ?_, ?_, ?_, ?_, nofun⟩ <;> exact ⟨by decide, by decide⟩
  have stream : encode (lines ["0", "0", "(", "", "quit", "0"])
      = encode "0\n0\n(\n\nquit\n0\n" := by
    decide +kernel
  obtain ⟨after, plainly⟩
      : ∃ after,
          PlainFinishes (Store.addGlobal ∅).1 fresh (encode "0\n0\n(\n\nquit\n0\n")
            ⟨["0", "0", "Error: read error: unmatched open paren"], none⟩ after := by
    have requests
        : Request.ofStream (encode "0\n0\n(\n\nquit\n0\n")
          = [.line "0", .line "0", .line "(", .line "", .quit, .line "0"] := by
      decide +kernel
    have number : Expr.read "0" = .ok [.number .zero] := by decide +kernel
    have rejected : Expr.read "(" = .error .unmatchedOpening := by decide +kernel
    have nothing : Expr.read "" = .ok [] := by decide +kernel
    simp only [PlainFinishes, plain, requests, answer, respond, Session.runText, Session.readText,
      number, rejected, nothing]
    exact ⟨_, 1, rfl⟩
  have agree := interactive_and_plain_agree Typing.lawful_terminal
    ⟨["0", "0", "(", "", "quit", "0"], []⟩ each (Store.addGlobal ∅).1 fresh
  rw [stream] at agree
  obtain ⟨ended, after', session, written, _, rfl, history⟩ := agree.leads plainly
  refine ⟨Typing.lawful_terminal, each, after', ended, plainly, session, written, ?_⟩
  rw [history]
  decide +kernel

end MiniLisp.Shell
