import MiniLisp.Proofs.Simulation.Agreement
import MiniLisp.Proofs.Simulation.Programs

/-! Processes with several sessions: each has a global frame of its own in the store that all share,
and is given texts one after another, while the others are given theirs.
-/

namespace MiniLisp.Session

/-- The answer to a text: what is shown for each of its forms, or for it if it cannot be read, and
the scope that it leaves.
-/
structure Answer where
  shown : List (Except String String)
  scope : String

/-- Runs a text in a frame and tells what came of it. -/
def answer (depth : Nat) (env : FrameId) (text : String) : Run Answer := do
  let outcomes ← runText depth text env
  let scope ← Run.readStore (·.scopeText env)
  return ⟨outcomes.map Outcome.shown, scope⟩

/-- The text, run in this frame, finishes with this answer. -/
def Answers (machine : Machine) (env : FrameId) (text : String) (reply : Answer) (after : Machine)
    : Prop :=
  ∃ depth, (answer depth env text).run machine = .ok (reply, after)

/-- One session of a process: its global frame, and the texts that it has been given so far, each
with its answer.
-/
structure Record where
  env : FrameId
  history : List (String × Answer)

/-- A process: one machine, and the sessions that have been opened on it. -/
structure Process where
  machine : Machine
  sessions : List Record

/-- A text goes to the end of a session's history. -/
def Record.add (record : Record) (text : String) (reply : Answer) : Record :=
  { record with history := record.history ++ [(text, reply)] }

/-- One step of a process: a session is opened with a fresh global frame, or any of the sessions is
given a text, which finishes.
-/
inductive Process.Step (process : Process) : Process → Prop
  | opened
    : Step process
        ⟨{ process.machine with store := process.machine.store.addGlobal.2 },
          process.sessions ++ [⟨process.machine.store.addGlobal.1, []⟩]⟩
  | text {front record back text reply after} (among : process.sessions = front ++ record :: back)
    (answers : Answers process.machine record.env text reply after)
    : Step process ⟨after, front ++ record.add text reply :: back⟩

/-- The texts have these answers when they are run in order in one fresh global frame, and nothing
else is run.
-/
inductive Alone : List (String × Answer) → Machine → Prop
  | start : Alone [] ⟨(Store.addGlobal ∅).2, #[]⟩
  | text {history machine text reply after} (before : Alone history machine)
    (answers : Answers machine (Store.addGlobal ∅).1 text reply after)
    : Alone (history ++ [(text, reply)]) after

-----------------------------------------------------------------------------------------
-- Texts are answered in one way
-----------------------------------------------------------------------------------------

/-- Goes on from the end of a text to its answer. -/
def answered (env : FrameId) (ended : List Outcome × Machine) : Except Abort (Answer × Machine) :=
  .ok (⟨ended.1.map Outcome.shown, ended.2.store.scopeText env⟩, ended.2)

theorem answer_run (depth : Nat) (env : FrameId) (text : String) (machine : Machine)
    : (answer depth env text).run machine
      = ((runText depth text env).run machine).bind (answered env) := by
  rw [answer, Run.run_bind]
  cases (runText depth text env).run machine <;> rfl

/-- A text that is answered has been run. -/
theorem Answers.exists_run {machine after : Machine} {env : FrameId} {text : String}
    {reply : Answer} (answers : Answers machine env text reply after)
    : ∃ depth outcomes, (runText depth text env).run machine = .ok (outcomes, after) := by
  obtain ⟨depth, finished⟩ := answers
  obtain ⟨outcomes, middle, done, ended⟩ := Run.run_bind_eq_ok.mp finished
  cases ended
  exact ⟨depth, outcomes, done⟩

theorem answer_deeper {depth more : Nat} (le : depth ≤ more) {text : String} {env : FrameId}
    {machine : Machine} {ended : Answer × Machine}
    (finished : (answer depth env text).run machine = .ok ended)
    : (answer more env text).run machine = .ok ended := by
  obtain ⟨outcomes, middle, done, shown⟩ := Run.run_bind_eq_ok.mp finished
  exact Run.run_bind_eq_ok.mpr ⟨outcomes, middle, runText_deeper le done, shown⟩

theorem Answers.unique {machine after after' : Machine} {env : FrameId} {text : String}
    {reply reply' : Answer} (answers : Answers machine env text reply after)
    (answers' : Answers machine env text reply' after')
    : reply = reply' ∧ after = after' := by
  obtain ⟨depth, finished⟩ := answers
  obtain ⟨depth', finished'⟩ := answers'
  exact Prod.mk.inj (ended_unique depth depth' finished finished' fun le => answer_deeper le)

/-- Texts run alone have one answer each, by induction on them. -/
theorem Alone.unique {history history' : List (String × Answer)} {machine machine' : Machine}
    (alone : Alone history machine) (alone' : Alone history' machine')
    (texts : history.map (·.1) = history'.map (·.1))
    : history = history' ∧ machine = machine' := by
  induction alone generalizing history' machine' with
  | start =>
      cases alone' with
      | start => exact ⟨rfl, rfl⟩
      | text => simp at texts
  | text _ answers ih =>
      cases alone' with
      | start => simp at texts
      | text before' answers' =>
          simp only [List.map_append, List.map_cons, List.map_nil] at texts
          obtain ⟨earlier, last⟩ := List.append_inj' texts rfl
          obtain ⟨rfl, rfl⟩ := ih before' earlier
          obtain rfl := (List.cons.inj last).1
          obtain ⟨rfl, rfl⟩ := answers.unique answers'
          exact ⟨rfl, rfl⟩

end MiniLisp.Session
