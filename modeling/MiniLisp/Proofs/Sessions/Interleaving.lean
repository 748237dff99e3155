import Mathlib.Logic.Relation
import MiniLisp.Proofs.Scope.Persistence
import MiniLisp.Proofs.Scope.SoundRuns
import MiniLisp.Proofs.Sessions.Process
import MiniLisp.Proofs.Simulation.Avoiding

/-! Sessions of one process do not interfere.
What a session sees in the shared store matches what it would see in a store of its own, and keeps
apart from the global frames of the others. Its own texts extend the match; the texts of the others
change only what lies outside it.
-/

namespace MiniLisp.Session

open Store Matching

-----------------------------------------------------------------------------------------
-- One text on two machines
-----------------------------------------------------------------------------------------

section Texts

variable {m : Matching} {avoided : FrameId → Prop} {env env' : FrameId} {machine machine' : Machine}
  (stores : m.StoresApart avoided machine.store machine'.store) (frames : m.frames env env')

include stores frames

/-- A text run in matching frames shows the same, and what matches still does. -/
theorem runText_together (depth : Nat) (text : String)
    : EndTogether False False
        (fun left right =>
          left.1.map Outcome.shown = right.1.map Outcome.shown
          ∧ ∃ m' : Matching, m.Extends m' ∧ m'.StoresApart avoided left.2.store right.2.store)
        ((runText depth text env).run machine) ((runText depth text env').run machine') := by
  rw [runText_run, runText_run]
  cases Expr.read text with
  | error error => exact .finished ⟨rfl, m, refl_of Extends m, stores⟩
  | ok forms =>
      have same : List.Forall₂ ((Matching.apart avoided).code ()) forms forms :=
        List.forall₂_same.mpr fun _ _ => rfl
      have ends := Simulation.runForms_together (apart_relatedEvaluators avoided depth) () frames
        same text text
        { machine with trace := machine.trace.push (.read forms.length text) }
        { machine' with trace := machine'.trace.push (.read forms.length text) } stores
      refine ends.imp fun left right together => ?_
      obtain ⟨m', grows, after, results⟩ := together
      exact ⟨shown_eq results, m', grows, after⟩

/-- So the text has the same answer in both. -/
theorem answers_together (text : String)
    : FinishTogether (Answers machine env text) (Answers machine' env' text)
        fun reply after reply' after' =>
          reply = reply'
          ∧ ∃ m' : Matching, m.Extends m' ∧ m'.StoresApart avoided after.store after'.store := by
  refine finishTogether_of_ends fun depth => ?_
  rw [answer_run, answer_run]
  refine (runText_together stores frames depth text).bind fun left right together => ?_
  obtain ⟨shown, m', grows, after⟩ := together
  have scope := after.scopeText_eq (grows.frames frames)
  refine .finished ⟨?_, m', grows, after⟩
  rw [shown, scope]

end Texts

-----------------------------------------------------------------------------------------
-- What holds of each session
-----------------------------------------------------------------------------------------

/-- A frame of another session than the one with this global frame. -/
def OfOthers (envs : List FrameId) (env place : FrameId) : Prop :=
  place ∈ envs ∧ place ≠ env

/-- The session has had the answers that its texts have alone. What it sees matches what it would see
alone, and is no global frame of another session.
-/
def Record.AsAlone (record : Record) (envs : List FrameId) (store : Store) : Prop :=
  ∃ (alone : Machine) (m : Matching),
    Alone record.history alone
    ∧ m.frames (Store.addGlobal ∅).1 record.env
    ∧ m.StoresApart (OfOthers envs record.env) alone.store store

/-- A session that has just been opened. -/
theorem asAlone_opened {envs : List FrameId} {store : Store}
    (present : ∀ env ∈ envs, env < store.frames.size)
    : Record.AsAlone ⟨store.addGlobal.1, []⟩ (envs ++ [store.addGlobal.1]) store.addGlobal.2 := by
  have stores : (⟨fun _ _ => False, fun _ _ => False⟩ : Matching).StoresApart
      (OfOthers (envs ++ [store.addGlobal.1]) store.addGlobal.1) ∅ store := by
    refine ⟨stores_nothing Eq ∅ store, fun other => ?_, False.elim⟩
    obtain ⟨member, other⟩ := other
    rcases List.mem_append.mp member with earlier | own
    · exact present _ earlier
    · exact absurd (List.mem_singleton.mp own) other
  refine ⟨_, _, .start, ?_, stores.addFrame .none (globals_together _)⟩
  exact .inr ⟨rfl, rfl⟩

section Others

variable {record : Record} {envs : List FrameId} {store after : Store}
  (asAlone : record.AsAlone envs store)

include asAlone

theorem Record.AsAlone.present : record.env < store.frames.size := by
  obtain ⟨alone, m, _, frames, stores⟩ := asAlone
  exact (stores.present frames).2

/-- Another session is opened. -/
theorem Record.AsAlone.opened
    : record.AsAlone (envs ++ [store.addGlobal.1]) store.addGlobal.2 := by
  obtain ⟨alone, m, history, frames, stores⟩ := asAlone
  have size : store.frames.size < store.addGlobal.2.frames.size :=
    Nat.lt_of_lt_of_eq (Nat.lt_succ_self _) (size_addFrame _ _).symm
  refine ⟨alone, m, history, frames, stores.changeSecond (Nat.le_of_lt size) (Nat.le_refl _)
    (fun id old _ => frame?_addFrame_of_lt old _) fun place other => ?_⟩
  obtain ⟨member, differs⟩ := other
  rcases List.mem_append.mp member with earlier | own
  · exact .inl ⟨earlier, differs⟩
  · obtain rfl := List.mem_singleton.mp own
    exact .inr ⟨rfl, size⟩

/-- Another session has run a text. -/
theorem Record.AsAlone.changes {env : FrameId} (other : OfOthers envs record.env env)
    (changes : Changes env (fun _ => True) store after) (grows : store.extent.Within after.extent)
    : record.AsAlone envs after := by
  obtain ⟨alone, m, history, frames, stores⟩ := asAlone
  refine ⟨alone, m, history, frames, stores.changeSecond grows.frames grows.closures
    (fun id old kept => changes.others id old ?_) fun _ => .inl⟩
  rintro rfl
  exact kept other

end Others

/-- The session itself has run a text. -/
theorem Record.AsAlone.text {record : Record} {envs : List FrameId} {machine after : Machine}
    (asAlone : record.AsAlone envs machine.store) {text : String} {reply : Answer}
    (answers : Answers machine record.env text reply after)
    : (record.add text reply).AsAlone envs after.store := by
  obtain ⟨alone, m, history, frames, stores⟩ := asAlone
  obtain ⟨_, alone', answers', rfl, m', grows, stores'⟩ :=
    (answers_together stores frames text).leads answers
  exact ⟨alone', m', history.text answers', grows.frames frames, stores'⟩

-----------------------------------------------------------------------------------------
-- Steps of the process
-----------------------------------------------------------------------------------------

/-- The global frames of the sessions. -/
def Process.envs (process : Process) : List FrameId :=
  process.sessions.map (·.env)

/-- What holds at every moment: the store is sound, the sessions have different global frames, and
each has had the answers that its texts have alone.
-/
structure Process.Apart (process : Process) : Prop where
  sound : process.machine.store.Sound
  distinct : process.envs.Nodup
  each : ∀ record ∈ process.sessions, record.AsAlone process.envs process.machine.store

variable {process later : Process}

theorem Process.Apart.present (apart : process.Apart)
    : ∀ env ∈ process.envs, env < process.machine.store.frames.size := by
  intro env member
  obtain ⟨record, among, rfl⟩ := List.mem_map.mp member
  exact (apart.each record among).present

/-- Opening a session keeps the sessions apart. -/
theorem Process.Apart.opened (apart : process.Apart)
    : Process.Apart
        ⟨{ process.machine with store := process.machine.store.addGlobal.2 },
          process.sessions ++ [⟨process.machine.store.addGlobal.1, []⟩]⟩ := by
  have envs : Process.envs ⟨{ process.machine with store := process.machine.store.addGlobal.2 },
        process.sessions ++ [⟨process.machine.store.addGlobal.1, []⟩]⟩
      = process.envs ++ [process.machine.store.addGlobal.1] :=
    List.map_append
  refine ⟨apart.sound.addGlobal, ?distinct, ?each⟩
  case distinct =>
    rw [envs]
    refine apart.distinct.append (List.nodup_singleton _) ?_
    rw [List.disjoint_singleton]
    intro member
    exact Nat.lt_irrefl _ (apart.present _ member)
  case each =>
    rw [envs]
    refine List.forall_mem_append.mpr ⟨fun record among => ?_, ?_⟩
    · exact (apart.each record among).opened
    · exact List.forall_mem_singleton.mpr (asAlone_opened apart.present)

/-- Running a text in one session keeps the sessions apart. -/
theorem Process.Apart.text (apart : process.Apart) {front back : List Record} {record : Record}
    {text : String} {reply : Answer} {after : Machine}
    (among : process.sessions = front ++ record :: back)
    (answers : Answers process.machine record.env text reply after)
    : Process.Apart ⟨after, front ++ record.add text reply :: back⟩ := by
  have envs : Process.envs ⟨after, front ++ record.add text reply :: back⟩ = process.envs := by
    simp only [Process.envs, among, List.map_append, List.map_cons, Record.add]
  obtain ⟨depth, outcomes, finished⟩ := answers.exists_run
  have own : record.AsAlone process.envs process.machine.store :=
    apart.each record (by simp [among])
  have stays := staysSound_runText apart.sound (fun _ _ _ => trivial) own.present finished
  have changes := changes_runText finished
  have distinct : (front.map (·.env) ++ record.env :: back.map (·.env)).Nodup := by
    simpa [Process.envs, among] using apart.distinct
  have others (other : Record) (member : other ∈ front ++ back)
      : other.AsAlone process.envs after.store := by
    have listed : other ∈ process.sessions := by
      rw [among]
      simp only [List.mem_append, List.mem_cons] at member ⊢
      tauto
    refine (apart.each other listed).changes ⟨?_, ?_⟩ changes stays.grows
    · simp [Process.envs, among]
    · intro same
      have fresh := (List.nodup_middle.mp distinct).notMem
      refine fresh ?_
      rw [same, ← List.map_append]
      exact List.mem_map_of_mem member
  refine ⟨stays.sound, envs ▸ apart.distinct, ?_⟩
  rw [envs]
  refine List.forall_mem_append.mpr ⟨fun other member => ?_, List.forall_mem_cons.mpr ⟨?_, ?_⟩⟩
  · exact others other (List.mem_append_left _ member)
  · exact own.text answers
  · exact fun other member => others other (List.mem_append_right _ member)

/-- Every step keeps the sessions apart. -/
theorem Process.Step.apart (step : process.Step later) (apart : process.Apart) : later.Apart := by
  cases step with
  | opened => exact apart.opened
  | text among answers => exact apart.text among answers

/-- So does any number of steps, by induction on them. -/
theorem Process.apart_of_steps (apart : process.Apart)
    (steps : Relation.ReflTransGen Process.Step process later)
    : later.Apart := by
  induction steps with
  | refl => exact apart
  | tail _ step ih => exact step.apart ih

/-- Sessions of one process do not interfere: however their texts are interleaved, each session has
had the answers that its texts have when they are run alone, and so it goes on, since any further
text finishes just when it would alone and with the same answer.
-/
theorem sessions_answer_as_alone {machine : Machine} (sound : machine.store.Sound)
    (steps : Relation.ReflTransGen Process.Step ⟨machine, []⟩ process) {record : Record}
    (opened : record ∈ process.sessions)
    : ∃ alone,
        Alone record.history alone
        ∧ ∀ text,
            FinishTogether (Answers alone (Store.addGlobal ∅).1 text)
              (Answers process.machine record.env text)
              fun reply _ reply' _ => reply = reply' := by
  have start : Process.Apart ⟨machine, []⟩ :=
    ⟨sound, List.nodup_nil, fun _ member => nomatch member⟩
  obtain ⟨alone, m, history, frames, stores⟩ := (Process.apart_of_steps start steps).each _ opened
  exact ⟨alone, history, fun text => (answers_together stores frames text).imp
    fun _ _ together => together.1⟩

/-- A session that redefines a global name, and another that is opened before and given a text after
that: there the name means what it did, and the text has the answer that it has alone.
-/
theorem redefinition_stays_in_session
    : ∃ process first second,
        Relation.ReflTransGen Process.Step ⟨⟨∅, #[]⟩, []⟩ process
        ∧ process.sessions = [first, second]
        ∧ first.history.map (·.1) = ["(define true 0)"]
        ∧ second.history.map (·.1) = ["(define (f) ())"]
        ∧ process.machine.store.local? first.env "true" = some (.integer .zero)
        ∧ process.machine.store.local? second.env "true" = some (.bool true)
        ∧ ∃ alone,
            Alone second.history alone
            ∧ ∀ text,
                FinishTogether (Answers alone (Store.addGlobal ∅).1 text)
                  (Answers process.machine second.env text)
                  fun reply _ reply' _ => reply = reply' := by
  have answered {depth : Nat} {machine after : Machine} {env : FrameId} {text : String}
      {forms : List Expr} {outcomes : List Outcome} (read : Expr.read text = .ok forms)
      (finished
        : (runForms depth text env forms).run
              { machine with trace := machine.trace.push (.read forms.length text) }
            = .ok (outcomes, after))
      : Answers machine env text ⟨outcomes.map Outcome.shown, after.store.scopeText env⟩ after := by
    refine ⟨depth, ?_⟩
    simp only [answer_run, runText_run, read, finished]
    rfl
  have redefines
      : Expr.read "(define true 0)"
        = .ok [.form .definition [.symbol "true", .number .zero]] := by
    decide +kernel
  have defines
      : Expr.read "(define (f) ())"
        = .ok [.form .definition [.list [.symbol "f"], .list []]] := by
    decide +kernel
  have process
      : ∃ process first second,
          Relation.ReflTransGen Process.Step ⟨⟨∅, #[]⟩, []⟩ process
          ∧ process.sessions = [first, second]
          ∧ first.history.map (·.1) = ["(define true 0)"]
          ∧ second.history.map (·.1) = ["(define (f) ())"]
          ∧ process.machine.store.local? first.env "true" = some (.integer .zero)
          ∧ process.machine.store.local? second.env "true" = some (.bool true) :=
    ⟨_, _, _, .head .opened (.head .opened
      (.head (@Process.Step.text _ [] ⟨0, []⟩ [⟨1, []⟩] _ _ _ rfl
          (@answered 2 _ _ _ _ _ _ redefines rfl))
        (.single (@Process.Step.text _ [_] ⟨1, []⟩ [] _ _ _ rfl
          (@answered 1 _ _ _ _ _ _ defines rfl))))), rfl, rfl, rfl, rfl, rfl⟩
  obtain ⟨process, first, second, steps, sessions, texts, texts', bound, bound'⟩ := process
  refine ⟨process, first, second, steps, sessions, texts, texts', bound, bound', ?_⟩
  exact sessions_answer_as_alone sound_empty steps (by simp [sessions])

end MiniLisp.Session
