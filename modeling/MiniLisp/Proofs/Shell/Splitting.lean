import MiniLisp.Proofs.Shell.Scripts

/-! Launches with files, from a fresh global frame.
Where a script is split into files makes no difference, and a file that cannot be used ends the
launch at its turn.
-/

namespace MiniLisp.Shell

open MiniLisp.Text Session

section Launches

variable (program : String) (disk : Disk) (stream : Bytes)

/-- The program, launched with these files from a fresh global frame, ends with this report and
store.
-/
def LaunchEnds (files : List String) (report : Report Fault) (store : Store) : Prop :=
  ∃ depth trace,
    (launch depth (Store.addGlobal ∅).1 disk (program :: files) stream).run fresh
    = .ok (report, ⟨store, trace⟩)

/-- So do the files of a launch that come before another: if there are none, nothing is done. -/
def FilesEnd : List String → Report Fault → Store → Prop
  | [], report, store => report = ⟨[], none⟩ ∧ store = fresh.store
  | path :: rest, report, store => LaunchEnds program disk stream (path :: rest) report store

/-- What a path gives cannot be used: it is refused, or no text, or a text that cannot be read. -/
inductive Unusable (path : String) : Except InputFault Bytes → Fault → Prop
  | refused (fault) : Unusable path (.error fault) (.io fault)
  | notText {bytes} (undecodable : decode? bytes = none)
    : Unusable path (.ok bytes) (.io .notText)
  | unreadable {text error} (rejected : Expr.read text = .error error)
    : Unusable path (.ok (encode text)) (.script path (.read error))

/-- The reports of several scripts and of all of them in one: the same lines and either no fault or
the same error. It is that of the first form that fails, and the first report names the script that
this form is in.
-/
structure SameReport (scripts : List Script) (whole : String) (store : Store)
    (report report' : Report Fault)
    : Prop where
  lines : report.lines = report'.lines
  fault
    : (report.fault = none ∧ report'.fault = none)
      ∨ ∃ front script back values error,
          scripts = front ++ script :: back
          ∧ FailsBehind (Script.join whole scripts).text (Script.allForms scripts) values error
              store
          ∧ (Script.allForms front).length ≤ values.length
          ∧ values.length < (Script.allForms (front ++ [script])).length
          ∧ report.fault = some (.script script.path (.eval error))
          ∧ report'.fault = some (.script whole (.eval error))

variable {program disk stream}

theorem filesEnd_iff {files : List String} {report : Report Fault} {store : Store}
    : FilesEnd program disk stream files report store
      ↔ ∃ depth trace,
          (runScripts depth (Store.addGlobal ∅).1 disk files).run fresh
          = .ok (report, ⟨store, trace⟩) := by
  cases files with
  | cons path rest => rfl
  | nil =>
      constructor
      · rintro ⟨rfl, rfl⟩
        exact ⟨0, #[], rfl⟩
      · rintro ⟨depth, trace, ended⟩
        obtain ⟨rfl, same⟩ := Prod.mk.inj (Except.ok.inj ended)
        exact ⟨rfl, (congrArg Machine.store same).symm⟩

/-- A launch with files is over them alone. -/
theorem launchEnds_iff {files : List String} (some : files ≠ []) {report : Report Fault}
    {store : Store}
    : LaunchEnds program disk stream files report store
      ↔ FilesEnd program disk stream files report store := by
  cases files with
  | nil => exact absurd rfl some
  | cons path rest => rfl

/-- Files that are scripts end as their forms do, run in order. -/
theorem filesEnd_alike {scripts : List Script} (onDisk : ∀ script ∈ scripts, script.OnDisk disk)
    (text : String)
    : FinishTogether (FilesEnd program disk stream (scripts.map (·.path)))
        (Session.Finishes text (Script.allForms scripts))
        fun report store outcomes store' => store = store' ∧ Reported scripts outcomes report := by
  have finish
      : FinishTogether
          (fun report after =>
            ∃ depth,
              (runScripts depth (Store.addGlobal ∅).1 disk (scripts.map (·.path))).run fresh
              = .ok (report, after))
          (fun outcomes after =>
            ∃ depth,
              (runForms depth text (Store.addGlobal ∅).1 (Script.allForms scripts)).run fresh
              = .ok (outcomes, after))
          fun report after outcomes after' =>
            after.store = after'.store ∧ Reported scripts outcomes report :=
    finishTogether_of_ends fun depth =>
      runScripts_alike depth (Store.addGlobal ∅).1 onDisk (@rfl _ fresh.store) text
  constructor
  · intro report store ends
    obtain ⟨depth, trace, ended⟩ := filesEnd_iff.mp ends
    obtain ⟨outcomes, after, ⟨depth', finished⟩, same, reported⟩ := finish.follows ⟨depth, ended⟩
    exact ⟨outcomes, after.store, ⟨depth', after.trace, finished⟩, same, reported⟩
  · rintro outcomes store ⟨depth, trace, finished⟩
    obtain ⟨report, after, ⟨depth', ended⟩, same, reported⟩ := finish.leads ⟨depth, finished⟩
    exact ⟨report, after.store, filesEnd_iff.mpr ⟨depth', after.trace, ended⟩, same, reported⟩

theorem values_ne_failure (values values' : List Value) (failure : Failure)
    : (values.map .ok : List Outcome) ≠ values'.map .ok ++ [.error failure] := by
  intro same
  have member : .error failure ∈ (values.map .ok : List Outcome) := by simp [same]
  simp at member

/-- Outcomes of the same forms are reported alike, whether they are in several scripts or in one. -/
theorem sameReport_of_reported {scripts : List Script} {whole : String} {outcomes : List Outcome}
    {store : Store}
    (finishes
      : Session.Finishes (Script.join whole scripts).text (Script.allForms scripts) outcomes store)
    {report report' : Report Fault} (reported : Reported scripts outcomes report)
    (reported' : Reported [Script.join whole scripts] outcomes report')
    : SameReport scripts whole store report report' := by
  generalize same : outcomes = outcomes' at reported'
  cases reported with
  | @success values _ =>
      cases reported' with
      | @success values' _ =>
          obtain rfl := List.map_injective_iff.mpr (fun _ _ => Except.ok.inj) same
          exact ⟨rfl, .inl ⟨rfl, rfl⟩⟩
      | @failure _ _ _ _ values' _ _ _ => exact absurd same (values_ne_failure values values' _)
  | @failure front script back error values split behind inside =>
      cases reported' with
      | @success values' _ => exact absurd same.symm (values_ne_failure values' values _)
      | @failure front' script' back' error' values' split' _ _ =>
          obtain ⟨equal, last⟩ := List.append_inj' same rfl
          obtain rfl := List.map_injective_iff.mpr (fun _ _ => Except.ok.inj) equal
          cases last
          have named : script'.path = whole := by
            have member : script' ∈ [Script.join whole scripts] := by simp [split']
            rw [List.mem_singleton.mp member]
            rfl
          refine ⟨rfl, .inr ⟨front, script, back, values, error, split, finishes, behind, inside,
            rfl, ?_⟩⟩
          rw [named]

/-- A file that cannot be used ends the launch without having done anything. -/
theorem runScripts_unusable {bad : String} {fault : Fault}
    (unusable : Unusable bad (disk bad) fault) (depth : Nat) (env : FrameId) (later : List String)
    (machine : Machine)
    : ∃ trace,
        (runScripts depth env disk (bad :: later)).run machine
        = .ok (⟨[], some fault⟩, ⟨machine.store, trace⟩) := by
  rw [runScripts_cons]
  generalize disk bad = contents at unusable
  cases unusable with
  | refused fault => exact ⟨_, rfl⟩
  | notText undecodable =>
      simp only [runScript, Run.run_bind, Run.run_emit, undecodable]
      exact ⟨_, rfl⟩
  | unreadable rejected =>
      simp only [runScript, Run.run_bind, Run.run_emit, decode?_encode, runText_run, rejected]
      exact ⟨_, rfl⟩

/-- Files before one that cannot be used end without a fault, and then its fault ends the launch, or
end with a fault of their own.
-/
theorem filesEnd_unusable {bad : String} {fault : Fault} (unusable : Unusable bad (disk bad) fault)
    {before later : List String} {report : Report Fault} {store : Store}
    : FilesEnd program disk stream (before ++ bad :: later) report store
      ↔ (∃ lines,
            FilesEnd program disk stream before ⟨lines, none⟩ store
            ∧ report = ⟨lines, some fault⟩)
        ∨ (report.fault ≠ none ∧ FilesEnd program disk stream before report store) := by
  rw [filesEnd_iff]
  constructor
  · rintro ⟨depth, trace, ended⟩
    rcases runScripts_append_eq_ok_iff.mp ended with
      ⟨front, failed⟩ | ⟨lines, middle, last, front, back, rfl⟩
    · exact .inr ⟨failed, filesEnd_iff.mpr ⟨depth, trace, front⟩⟩
    · obtain ⟨trace', stopped⟩ :=
        runScripts_unusable unusable depth (Store.addGlobal ∅).1 later middle
      obtain ⟨rfl, same⟩ := Prod.mk.inj (Except.ok.inj (stopped.symm.trans back))
      obtain rfl := congrArg Machine.store same
      exact .inl ⟨lines, filesEnd_iff.mpr ⟨depth, middle.trace, front⟩, by simp [Report.after]⟩
  · rintro (⟨lines, ends, rfl⟩ | ⟨failed, ends⟩)
    · obtain ⟨depth, trace, front⟩ := filesEnd_iff.mp ends
      obtain ⟨trace', stopped⟩ :=
        runScripts_unusable unusable depth (Store.addGlobal ∅).1 later ⟨store, trace⟩
      refine ⟨depth, trace', runScripts_append_eq_ok_iff.mpr (.inr ?_)⟩
      exact ⟨lines, _, _, front, stopped, by simp [Report.after]⟩
    · obtain ⟨depth, trace, front⟩ := filesEnd_iff.mp ends
      exact ⟨depth, trace, runScripts_append_eq_ok_iff.mpr (.inl ⟨front, failed⟩)⟩

/-- Where a script is split into files makes no difference. A launch with files that can be read
ends exactly where a launch with one file does that holds all their contents joined by line feeds:
with the same lines, the same store, and with the same error if there is one. Files behind one that
cannot be used have no effect; if those before it end without a fault, its fault comes behind what
they show and leave.
-/
theorem splitting_is_unobservable (program : String) (disk : Disk) (stream : Bytes)
    : (∀ scripts whole disk',
        scripts ≠ []
        → (∀ script ∈ scripts, disk script.path = .ok (encode script.text))
        → disk' whole = .ok (encode ("\n".intercalate (scripts.map Script.text)))
        → FinishTogether (LaunchEnds program disk stream (scripts.map Script.path))
            (LaunchEnds program disk' stream [whole])
            fun report store report' store' =>
              store = store' ∧ SameReport scripts whole store report report')
      ∧ ∀ before bad later fault,
          Unusable bad (disk bad) fault
          → ∀ report store,
              LaunchEnds program disk stream (before ++ bad :: later) report store
              ↔ (∃ lines,
                    FilesEnd program disk stream before ⟨lines, none⟩ store
                    ∧ report = ⟨lines, some fault⟩)
                ∨ (report.fault ≠ none ∧ FilesEnd program disk stream before report store) := by
  constructor
  · intro scripts whole disk' some onDisk joined
    let one := Script.join whole scripts
    have several := @filesEnd_alike program disk stream scripts onDisk one.text
    have oneOnDisk : ∀ script ∈ [one], script.OnDisk disk' := List.forall_mem_singleton.mpr joined
    have single := @filesEnd_alike program disk' stream [one] oneOnDisk one.text
    have sameForms : Script.allForms [one] = Script.allForms scripts := by
      simp [Script.allForms, one, Script.join]
    rw [sameForms] at single
    have both := several.through single
    cases scripts with
    | nil => exact absurd rfl some
    | cons script rest =>
        refine both.imp fun _ _ found => ?_
        obtain ⟨outcomes, between, finishes, left, right⟩ := found
        obtain ⟨rfl, reported⟩ := left
        obtain ⟨rfl, reported'⟩ := right
        exact ⟨rfl, sameReport_of_reported finishes reported reported'⟩
  · intro before bad later fault unusable report store
    rw [launchEnds_iff (by simp)]
    exact filesEnd_unusable unusable

end Launches

/-- A failure in the second of two files, and a file between them that is missing. -/
theorem failing_file_is_named
    : ∃ disk disk' : Disk,
        disk "start.scm" = .ok (encode "0")
        ∧ disk "end.scm" = .ok (encode "()\n0")
        ∧ disk "none.scm" = .error (.refused .missing)
        ∧ disk' "all.scm" = .ok (encode "0\n()\n0")
        ∧ LaunchEnds "charme" disk [] ["start.scm", "end.scm"]
            ⟨["0"], some (.script "end.scm" (.eval (.emptyForm (.list []))))⟩ fresh.store
        ∧ LaunchEnds "charme" disk' [] ["all.scm"]
            ⟨["0"], some (.script "all.scm" (.eval (.emptyForm (.list []))))⟩ fresh.store
        ∧ LaunchEnds "charme" disk [] ["start.scm", "none.scm", "end.scm"]
            ⟨["0"], some (.io (.refused .missing))⟩ fresh.store := by
  let first : Script := ⟨"start.scm", "0", [.number .zero], by decide +kernel⟩
  let second : Script := ⟨"end.scm", "()\n0", [.list [], .number .zero], by decide +kernel⟩
  let disk : Disk := fun path =>
    if path = "start.scm" then .ok (encode "0")
    else if path = "end.scm" then .ok (encode "()\n0")
    else .error (.refused .missing)
  let disk' : Disk := fun _ => .ok (encode "0\n()\n0")
  have onDisk : first.OnDisk disk ∧ second.OnDisk disk := ⟨rfl, rfl⟩
  have missing : disk "none.scm" = .error (.refused .missing) := rfl
  obtain ⟨middle, front⟩
      : ∃ trace,
          (runScripts 1 (Store.addGlobal ∅).1 disk ["start.scm"]).run fresh
          = .ok (⟨["0"], none⟩, ⟨fresh.store, trace⟩) :=
    ⟨_, runScripts_onDisk 1 (Store.addGlobal ∅).1 disk onDisk.1 [] fresh⟩
  obtain ⟨last, back⟩
      : ∃ trace,
          (runScripts 1 (Store.addGlobal ∅).1 disk ["end.scm"]).run ⟨fresh.store, middle⟩
          = .ok (⟨[], some (.script "end.scm" (.eval (.emptyForm (.list []))))⟩,
              ⟨fresh.store, trace⟩) :=
    ⟨_, runScripts_onDisk 1 (Store.addGlobal ∅).1 disk onDisk.2 [] ⟨fresh.store, middle⟩⟩
  have ends
      : LaunchEnds "charme" disk [] ["start.scm", "end.scm"]
          ⟨["0"], some (.script "end.scm" (.eval (.emptyForm (.list []))))⟩ fresh.store := by
    have both := runScripts_append_eq_ok_iff.mpr (.inr ⟨_, _, _, front, back, rfl⟩)
    exact ⟨1, last, both⟩
  obtain ⟨splits, unusable⟩ := splitting_is_unobservable "charme" disk []
  have joined := splits [first, second] "all.scm" disk' (by simp)
    (List.forall_mem_cons.mpr ⟨onDisk.1, List.forall_mem_singleton.mpr onDisk.2⟩) rfl
  obtain ⟨⟨lines, fault⟩, store, whole, rfl, same⟩ := joined.follows ends
  obtain rfl : lines = ["0"] := same.lines.symm
  have named : fault = some (.script "all.scm" (.eval (.emptyForm (.list [])))) := by
    rcases same.fault with ⟨none, _⟩ | ⟨_, _, _, _, _, _, _, _, _, left, right⟩
    · cases none
    · obtain ⟨_, failure⟩ := Fault.script.inj (Option.some.inj left)
      rw [← failure] at right
      exact right
  have before : FilesEnd "charme" disk [] ["start.scm"] ⟨["0"], none⟩ fresh.store :=
    ⟨1, middle, front⟩
  have stopped := unusable ["start.scm"] "none.scm" ["end.scm"] _ (.refused _)
  exact ⟨disk, disk', rfl, rfl, missing, rfl, ends, named ▸ whole,
    (stopped _ _).mpr (.inl ⟨_, before, rfl⟩)⟩

end MiniLisp.Shell
