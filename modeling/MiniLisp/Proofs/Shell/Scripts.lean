import MiniLisp.Proofs.Reading.Joining
import MiniLisp.Proofs.Shell.Drivers
import MiniLisp.Proofs.Simulation.Agreement

/-! Scripts run in order.
They run as their forms do one after the other, across files too: the first failure stops them all,
so it makes no difference where a file ends.
-/

namespace MiniLisp

namespace Session

-----------------------------------------------------------------------------------------
-- Forms in two parts
-----------------------------------------------------------------------------------------

/-- Forms in two parts go on with the second if each form of the first has a value, by induction on
the first.
-/
theorem runForms_append (depth : Nat) (text : String) (env : FrameId) (front back : List Expr)
    (machine : Machine)
    : (runForms depth text env (front ++ back)).run machine
      = ((runForms depth text env front).run machine).bind fun ended =>
          if ended.1.all Except.isOk then
            ((runForms depth text env back).run ended.2).bind fun last =>
              .ok (ended.1 ++ last.1, last.2)
          else .ok ended := by
  induction front generalizing machine with
  | nil => exact (bind_pure ((runForms depth text env back).run machine)).symm
  | cons form front ih =>
      rw [List.cons_append, runForms_cons, runForms_cons]
      rcases (evaluate depth form env).on machine with reason | ⟨error | value, middle⟩
      · rfl
      · rfl
      · simp only [Except.bind, goOn, ih]
        rcases (runForms depth text env front).run middle with reason | ⟨outcomes, after⟩
        · rfl
        · have first : (Except.ok value :: outcomes : List Outcome).all Except.isOk
              = outcomes.all Except.isOk := rfl
          simp only [first]
          by_cases succeeded : outcomes.all Except.isOk
          · rw [if_pos succeeded, if_pos succeeded]
            rcases (runForms depth text env back).run after with _ | ⟨_, _⟩ <;> rfl
          · rw [if_neg succeeded, if_neg succeeded]

/-- Outcomes of so many forms: a value for each, or values up to the one that fails. -/
def Reaches (count : Nat) (outcomes : List Outcome) : Prop :=
  (∃ values : List Value, outcomes = values.map .ok ∧ values.length = count)
  ∨ ∃ (values : List Value) (error : EvalError),
      outcomes = values.map .ok ++ [.error (.eval error)] ∧ values.length < count

/-- The same forms run from the same store come to the same, also as forms of another text. -/
theorem runForms_alike (depth : Nat) (env : FrameId) (forms : List Expr) {machine other : Machine}
    (same : machine.store = other.store) (text text' : String)
    : EndTogether False False
        (fun left right =>
          left.1 = right.1 ∧ left.2.store = right.2.store ∧ Reaches forms.length right.1)
        ((runForms depth text env forms).run machine)
        ((runForms depth text' env forms).run other) := by
  cases second : (runForms depth text' env forms).run other with
  | ok ended =>
      obtain ⟨outcomes, after⟩ := ended
      obtain ⟨trace, again⟩ := SameStore.runForms_again second same.symm text
      rw [again]
      exact .finished ⟨rfl, rfl, Shell.outcomes_of_runForms second⟩
  | error reason =>
      cases first : (runForms depth text env forms).run machine with
      | error _ => exact .stopped _ _
      | ok ended =>
          obtain ⟨trace, again⟩ := SameStore.runForms_again first same text'
          rw [second] at again
          cases again

end Session

namespace Shell

open MiniLisp.Text Session

/-- A script that can be read: where it is, its text, and its forms. -/
structure Script where
  path : String
  text : String
  forms : List Expr
  accepted : Expr.read text = .ok forms

namespace Script

/-- What the script's path gives is its text. -/
def OnDisk (disk : Disk) (script : Script) : Prop :=
  disk script.path = .ok (encode script.text)

/-- The forms of scripts, in order. -/
def allForms (scripts : List Script) : List Expr :=
  scripts.flatMap forms

/-- One script with the texts of several, joined by line feeds. -/
def join (path : String) (scripts : List Script) : Script where
  path
  text := "\n".intercalate (scripts.map text)
  forms := allForms scripts
  accepted := Expr.read_intercalate fun script _ => script.accepted

end Script

-----------------------------------------------------------------------------------------
-- Scripts in order
-----------------------------------------------------------------------------------------

section Order

variable (depth : Nat) (env : FrameId) (disk : Disk)

/-- Goes on with further scripts behind a report, unless that has a fault. -/
def goOnBehind (rest : Run (Report Fault)) (ended : Report Fault × Machine)
    : Except Abort (Report Fault × Machine) :=
  match ended.1.fault with
  | some _ => .ok ended
  | none => (rest.run ended.2).bind fun last => .ok (last.1.after ended.1.lines, last.2)

theorem runScripts_cons (path : String) (rest : List String) (machine : Machine)
    : (runScripts depth env disk (path :: rest)).run machine
      = ((runScript depth env path (disk path)).run machine).bind
          (goOnBehind (runScripts depth env disk rest)) := by
  rw [runScripts, Run.run_bind]
  rcases (runScript depth env path (disk path)).run machine with _ | ⟨⟨lines, _ | fault⟩, middle⟩
  · rfl
  · simp only [Except.bind, goOnBehind, Run.run_bind]
    rcases (runScripts depth env disk rest).run middle with _ | ⟨_, _⟩ <;> rfl
  · rfl

/-- Scripts in two parts go on with the second behind the first, by induction on the first. -/
theorem runScripts_append (front back : List String) (machine : Machine)
    : (runScripts depth env disk (front ++ back)).run machine
      = ((runScripts depth env disk front).run machine).bind
          (goOnBehind (runScripts depth env disk back)) := by
  induction front generalizing machine with
  | nil => exact (bind_pure ((runScripts depth env disk back).run machine)).symm
  | cons path front ih =>
      rw [List.cons_append, runScripts_cons, runScripts_cons]
      rcases (runScript depth env path (disk path)).run machine with
        _ | ⟨⟨lines, _ | fault⟩, middle⟩
      · rfl
      · simp only [Except.bind, goOnBehind, ih]
        rcases (runScripts depth env disk front).run middle with _ | ⟨⟨more, _ | fault⟩, after⟩
        · rfl
        · simp only [Report.after]
          rcases (runScripts depth env disk back).run after with _ | ⟨_, _⟩
          · rfl
          · simp
        · rfl
      · rfl

variable {depth env disk} in
/-- Scripts in two parts end as the first part does if that has a fault, and otherwise as the second
part does behind the lines of the first.
-/
theorem runScripts_append_eq_ok_iff {front back : List String} {machine after : Machine}
    {report : Report Fault}
    : (runScripts depth env disk (front ++ back)).run machine = .ok (report, after)
      ↔ ((runScripts depth env disk front).run machine = .ok (report, after)
          ∧ report.fault ≠ none)
        ∨ ∃ lines middle last,
            (runScripts depth env disk front).run machine = .ok (⟨lines, none⟩, middle)
            ∧ (runScripts depth env disk back).run middle = .ok (last, after)
            ∧ report = last.after lines := by
  rw [runScripts_append]
  generalize (runScripts depth env disk front).run machine = first
  constructor
  · intro ended
    rcases first with _ | ⟨⟨lines, _ | fault⟩, middle⟩
    · cases ended
    · simp only [Except.bind, goOnBehind] at ended
      cases second : (runScripts depth env disk back).run middle with
      | error reason => simp [second] at ended
      | ok last =>
          rw [second] at ended
          obtain ⟨rfl, rfl⟩ := Prod.mk.inj (Except.ok.inj ended)
          exact .inr ⟨lines, middle, last.1, rfl, second, rfl⟩
    · obtain ⟨rfl, rfl⟩ := Prod.mk.inj (Except.ok.inj ended)
      exact .inl ⟨rfl, Option.some_ne_none fault⟩
  · rintro (⟨rfl, failed⟩ | ⟨lines, middle, last, rfl, second, rfl⟩)
    · obtain ⟨fault, found⟩ := Option.ne_none_iff_exists'.mp failed
      simp only [Except.bind, goOnBehind, found]
    · simp only [Except.bind, goOnBehind, second]

/-- A script on the disk runs its forms, and further scripts go on behind the report on these. -/
theorem runScripts_onDisk {script : Script} (onDisk : script.OnDisk disk) (rest : List String)
    (machine : Machine)
    : (runScripts depth env disk (script.path :: rest)).run machine
      = ((runForms depth script.text env script.forms).run
            ⟨machine.store,
              (machine.trace.push (.load script.path)).push
                (.read script.forms.length script.text)⟩).bind fun ended =>
          goOnBehind (runScripts depth env disk rest)
            (scriptReport script.path ended.1, ended.2) := by
  rw [runScripts_cons, onDisk, runScript, Run.run_bind, Run.run_emit]
  simp only [decode?_encode, Run.run_bind, runText_run, script.accepted]
  rcases (runForms depth script.text env script.forms).run _ with _ | ⟨_, _⟩ <;> rfl

end Order

/-- The report on scripts whose forms come to these outcomes: the values are shown, and the fault is
the failure in the script that the form is in that fails, which is the one behind the values.
-/
inductive Reported (scripts : List Script) : List Outcome → Report Fault → Prop
  | success {values : List Value} (length : values.length = (Script.allForms scripts).length)
    : Reported scripts (values.map .ok) ⟨values.filterMap valueLine?, none⟩
  | failure {front script back error} {values : List Value}
    (split : scripts = front ++ script :: back)
    (behind : (Script.allForms front).length ≤ values.length)
    (inside : values.length < (Script.allForms (front ++ [script])).length)
    : Reported scripts (values.map .ok ++ [.error (.eval error)])
        ⟨values.filterMap valueLine?, some (.script script.path (.eval error))⟩

/-- A script whose forms have values comes before the others. -/
theorem Reported.after {scripts : List Script} {outcomes : List Outcome} {report : Report Fault}
    (reported : Reported scripts outcomes report) {script : Script} {values : List Value}
    (length : values.length = script.forms.length)
    : Reported (script :: scripts) (values.map .ok ++ outcomes)
        (report.after (values.filterMap valueLine?)) := by
  cases reported with
  | @success more count =>
      rw [← List.map_append, Report.after, ← List.filterMap_append]
      refine .success ?_
      simp [Script.allForms, length, count]
  | @failure front other back error more split behind inside =>
      rw [← List.append_assoc, ← List.map_append, Report.after, ← List.filterMap_append]
      refine @Reported.failure _ (script :: front) other back _ _ (by rw [split]; rfl) ?_ ?_
      · simpa [Script.allForms, length] using behind
      · simpa [Script.allForms, length] using inside

/-- Scripts on the disk run as their forms do in order, by induction on the scripts. -/
theorem runScripts_alike (depth : Nat) (env : FrameId) {disk : Disk} {scripts : List Script}
    (onDisk : ∀ script ∈ scripts, script.OnDisk disk) {machine other : Machine}
    (same : machine.store = other.store) (text : String)
    : EndTogether False False
        (fun left right => left.2.store = right.2.store ∧ Reported scripts right.1 left.1)
        ((runScripts depth env disk (scripts.map (·.path))).run machine)
        ((runForms depth text env (Script.allForms scripts)).run other) := by
  induction scripts generalizing machine other with
  | nil => exact .finished ⟨same, @Reported.success [] [] rfl⟩
  | cons script rest ih =>
      rw [List.forall_mem_cons] at onDisk
      have split : Script.allForms (script :: rest) = script.forms ++ Script.allForms rest := by
        simp [Script.allForms]
      rw [List.map_cons, runScripts_onDisk depth env disk onDisk.1, split, runForms_append]
      let loaded : Machine :=
        ⟨machine.store, (machine.trace.push (.load script.path)).push
          (.read script.forms.length script.text)⟩
      have sameLoaded : loaded.store = other.store := same
      refine (runForms_alike depth env script.forms sameLoaded script.text text).bind
        fun left right together => ?_
      obtain ⟨outcomes, middle⟩ := left
      obtain ⟨outcomes', middle'⟩ := right
      obtain ⟨equal, stores, reaches⟩ := together
      obtain rfl : outcomes = outcomes' := equal
      rcases reaches with ⟨values, rfl, length⟩ | ⟨values, error, rfl, shorter⟩
      · have succeeded : (values.map Except.ok : List Outcome).all Except.isOk = true := by
          simp [Except.isOk, Except.toBool]
        simp only [goOnBehind, scriptReport_values, succeeded, if_true]
        refine (ih onDisk.2 stores).bind fun left right together => ?_
        exact .finished ⟨together.1, together.2.after length⟩
      · have failed
            : (values.map .ok ++ [.error (.eval error)] : List Outcome).all Except.isOk
              = false := by
          simp [Except.isOk, Except.toBool]
        simp only [goOnBehind, scriptReport_failure, failed]
        refine .finished ⟨stores, @Reported.failure _ [] script rest _ _ rfl (Nat.zero_le _) ?_⟩
        simpa [Script.allForms] using shorter

end Shell

end MiniLisp
