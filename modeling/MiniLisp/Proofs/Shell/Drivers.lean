import MiniLisp.Proofs.Shell.Answering
import MiniLisp.Shell.Launch

/-! Scripts and the plain shell: two drivers of one evaluator.
A script is read as a whole and stops at its first failure. The plain shell reads line by line and
goes on behind a failure. Given the same forms, they run the same way up to the first failure.
-/

namespace MiniLisp.Shell

open MiniLisp.Text Session

/-- A machine with one fresh global frame. -/
def fresh : Machine :=
  ⟨(Store.addGlobal ∅).2, #[]⟩

/-- The script of this text, run in a fresh global frame, ends with this report and store. -/
def ScriptEnds (path text : String) (report : Report Fault) (store : Store) : Prop :=
  ∃ depth trace,
    (runScript depth (Store.addGlobal ∅).1 path (.ok (encode text))).run fresh
    = .ok (report, ⟨store, trace⟩)

/-- The plain shell, given this stream in a fresh global frame, ends with this report and store. -/
def PlainEnds (stream : Bytes) (report : Report InputFault) (store : Store) : Prop :=
  ∃ depth trace,
    (plain depth (Store.addGlobal ∅).1 stream).run fresh = .ok (report, ⟨store, trace⟩)

/-- The plain shell, given this stream in a fresh global frame, has come to this report and store
after so many of its lines.
-/
def PlainComesTo (stream : Bytes) (count : Nat) (report : Report InputFault) (store : Store) : Prop :=
  ∃ depth trace,
    (answer depth (Store.addGlobal ∅).1 ((Request.ofStream stream).take count)).run fresh
    = .ok (report, ⟨store, trace⟩)

/-- Each form printed on a line of its own. -/
def printed (forms : List Expr) : Bytes :=
  encode (lines (forms.map Expr.text))

-----------------------------------------------------------------------------------------
-- Outcomes up to the first failure
-----------------------------------------------------------------------------------------

/-- Forms that run in order have a value each, or up to the one that fails; by induction on them. -/
theorem outcomes_of_runForms {depth : Nat} {text : String} {env : FrameId} {forms : List Expr}
    {machine after : Machine} {outcomes : List Outcome}
    (finished : (runForms depth text env forms).run machine = .ok (outcomes, after))
    : (∃ values : List Value, outcomes = values.map .ok ∧ values.length = forms.length)
      ∨ ∃ (values : List Value) (error : EvalError),
          outcomes = values.map .ok ++ [.error (.eval error)] ∧ values.length < forms.length := by
  induction forms generalizing machine outcomes after with
  | nil =>
      obtain ⟨rfl, _⟩ := Prod.mk.inj (Except.ok.inj finished)
      exact .inl ⟨[], rfl, rfl⟩
  | cons form rest ih =>
      rcases runForms_cons_eq_ok.mp finished with
        ⟨error, middle, _, ended⟩ | ⟨value, middle, tail, last, _, goesOn, ended⟩
      · obtain ⟨rfl, _⟩ := Prod.mk.inj ended
        exact .inr ⟨[], error, rfl, by simp⟩
      · obtain ⟨rfl, _⟩ := Prod.mk.inj ended
        rcases ih goesOn with ⟨values, rfl, length⟩ | ⟨values, error, rfl, shorter⟩
        · exact .inl ⟨value :: values, rfl, by simp [length]⟩
        · exact .inr ⟨value :: values, error, rfl, by simp [shorter]⟩

/-- The forms have these values, one each, and leave this store. -/
def Succeeds (text : String) (forms : List Expr) (values : List Value) (store : Store) : Prop :=
  Session.Finishes text forms (values.map .ok) store

/-- The first forms have these values, the next one fails, and the store is as it leaves it. -/
def FailsBehind (text : String) (forms : List Expr) (values : List Value) (error : EvalError)
    (store : Store)
    : Prop :=
  Session.Finishes text forms (values.map .ok ++ [.error (.eval error)]) store

theorem Succeeds.length {text : String} {forms : List Expr} {values : List Value} {store : Store}
    (succeeds : Succeeds text forms values store)
    : values.length = forms.length := by
  obtain ⟨depth, trace, finished⟩ := succeeds
  rcases outcomes_of_runForms finished with ⟨values', same, length⟩ | ⟨values', error, same, _⟩
  · rw [← length, ← List.length_map Except.ok, same, List.length_map]
  · have member : .error (.eval error) ∈ (values.map Except.ok : List Outcome) := by
      rw [same]
      exact List.mem_append_right _ List.mem_cons_self
    obtain ⟨_, _, equal⟩ := List.mem_map.mp member
    cases equal

/-- A script shows the values before a further outcome first, by induction on them. -/
theorem scriptReport_append (path : String) (values : List Value) (rest : List Outcome)
    : scriptReport path (values.map .ok ++ rest)
      = (scriptReport path rest).after (values.filterMap valueLine?) := by
  induction values with
  | nil => rfl
  | cons value values ih =>
      simp only [List.map_cons, List.cons_append, scriptReport, ih, Report.after,
        List.filterMap_eq_flatMap_toList, List.flatMap_cons, List.append_assoc]

/-- A script whose forms all have values shows these. -/
theorem scriptReport_values (path : String) (values : List Value)
    : scriptReport path (values.map .ok) = ⟨values.filterMap valueLine?, none⟩ := by
  have report := scriptReport_append path values []
  rw [List.append_nil] at report
  simp only [report, scriptReport, Report.after, List.append_nil]

/-- A script with a form that fails shows the values before it. -/
theorem scriptReport_failure (path : String) (values : List Value) (failure : Failure)
    : scriptReport path (values.map .ok ++ [.error failure])
      = ⟨values.filterMap valueLine?, some (.script path failure)⟩ := by
  rw [scriptReport_append]
  simp only [scriptReport, Report.after, List.append_nil]

theorem shown_values (values : List Value)
    : (values.map .ok).filterMap (outcomeLine? false) = values.filterMap valueLine? := by
  rw [List.filterMap_map]
  rfl

theorem shown_failure (values : List Value) (error : EvalError)
    : (values.map .ok ++ [.error (.eval error)] : List Outcome).filterMap (outcomeLine? false)
      = values.filterMap valueLine? ++ ["Error: " ++ error.message] := by
  rw [List.filterMap_append, shown_values]
  rfl

-----------------------------------------------------------------------------------------
-- Both drivers from a fresh global frame
-----------------------------------------------------------------------------------------

section Drivers

variable {path text : String} {forms : List Expr}

/-- The plain shell comes to one report and one store only, whatever depth it was given. -/
theorem PlainComesTo.unique {stream : Bytes} {count : Nat} {report report' : Report InputFault}
    {store store' : Store} (comes : PlainComesTo stream count report store)
    (comes' : PlainComesTo stream count report' store')
    : report = report' ∧ store = store' := by
  obtain ⟨depth, trace, finished⟩ := comes
  obtain ⟨depth', trace', finished'⟩ := comes'
  have same := ended_unique depth depth' finished finished' fun le => answer_deeper le
  exact ⟨congrArg (·.1) same, congrArg (·.2.store) same⟩

/-- A script ends where its forms do, with the report of their outcomes. -/
theorem scriptEnds_iff (read : Expr.read text = .ok forms) {report : Report Fault} {store : Store}
    : ScriptEnds path text report store
      ↔ ∃ outcomes,
          Session.Finishes text forms outcomes store ∧ report = scriptReport path outcomes := by
  let loaded : Machine :=
    ⟨fresh.store, (fresh.trace.push (.load path)).push (.read forms.length text)⟩
  have sameLoaded : fresh.store = loaded.store := rfl
  simp only [ScriptEnds, runScript, decode?_encode, Run.run_bind_eq_ok, Run.run_emit,
    runText_run, read, Run.run_pure]
  constructor
  · rintro ⟨depth, trace, _, _, noted, outcomes, after, finished, ended⟩
    cases noted
    cases ended
    obtain ⟨trace', again⟩ := SameStore.runForms_again finished sameLoaded.symm text
    exact ⟨outcomes, ⟨depth, trace', again⟩, rfl⟩
  · rintro ⟨outcomes, ⟨depth, trace, finished⟩, rfl⟩
    obtain ⟨trace', again⟩ := SameStore.runForms_again finished sameLoaded text
    exact ⟨depth, trace', _, _, rfl, outcomes, _, again, rfl⟩

/-- The printed forms take the plain shell to the end when it has answered as many lines. -/
theorem plainEnds_iff (read : Expr.read text = .ok forms) (noQuit : .symbol quitWord ∉ forms)
    {report : Report InputFault} {store : Store}
    : PlainEnds (printed forms) report store
      ↔ PlainComesTo (printed forms) forms.length report store := by
  have requests := requests_of_forms (Expr.readable_of_read read) noQuit
  have all : (Request.ofStream (printed forms)).take forms.length
      = Request.ofStream (printed forms) := by
    rw [printed, requests]
    exact List.take_of_length_le (by simp)
  rw [PlainComesTo, all]
  rfl

/-- Where forms finish, the plain shell that is given them printed comes to what they come to. -/
theorem plainComesTo_of_finishes (read : Expr.read text = .ok forms)
    (noQuit : .symbol quitWord ∉ forms) {outcomes : List Outcome} {store : Store}
    (finishes : Session.Finishes text forms outcomes store)
    : PlainComesTo (printed forms) outcomes.length
        ⟨outcomes.filterMap (outcomeLine? false), none⟩ store := by
  have readable := Expr.readable_of_read read
  obtain ⟨depth, trace, finished⟩ := finishes
  obtain ⟨trace', answers⟩ := answer_of_runForms readable finished (@rfl _ fresh.store)
  refine ⟨depth, trace', ?_⟩
  rw [printed, requests_of_forms readable noQuit, ← List.map_take]
  exact answers

/-- Where the plain shell that is given printed forms ends, the forms finish. -/
theorem finishes_of_plainEnds (read : Expr.read text = .ok forms)
    (noQuit : .symbol quitWord ∉ forms) {report : Report InputFault} {store : Store}
    (ends : PlainEnds (printed forms) report store)
    : ∃ outcomes store', Session.Finishes text forms outcomes store' := by
  have readable := Expr.readable_of_read read
  obtain ⟨depth, trace, finished⟩ := ends
  rw [plain, printed, requests_of_forms readable noQuit] at finished
  obtain ⟨outcomes, ended, run⟩ := runForms_of_answer readable finished (@rfl _ fresh.store) text
  exact ⟨outcomes, ended.store, depth, ended.trace, run⟩

/-- What the plain shell has shown for some of the lines is where its report begins. -/
theorem PlainEnds.begins (read : Expr.read text = .ok forms) (noQuit : .symbol quitWord ∉ forms)
    {count : Nat} {shown : List String} {report : Report InputFault} {store later : Store}
    (comes : PlainComesTo (printed forms) count ⟨shown, none⟩ store)
    (ends : PlainEnds (printed forms) report later)
    : ∃ more, report.lines = shown ++ more := by
  have readable := Expr.readable_of_read read
  have requests : Request.ofStream (printed forms) = (forms.map Expr.text).map .line := by
    rw [printed, requests_of_forms readable noQuit, List.map_map]
    rfl
  obtain ⟨depth, trace, finished⟩ := ends
  rw [plain, requests, ← List.take_append_drop count ((forms.map Expr.text).map _), ← List.map_take]
    at finished
  obtain ⟨shown', middle, more, after, front, _, ended⟩ := answer_lines_append finished
  have comes' : PlainComesTo (printed forms) count ⟨shown', none⟩ middle.store :=
    ⟨depth, middle.trace, by rw [requests, ← List.map_take]; exact front⟩
  obtain ⟨same, _⟩ := comes.unique comes'
  obtain ⟨rfl, _⟩ := Prod.mk.inj ended
  cases same
  exact ⟨more.lines, rfl⟩

/-- Where forms finish, the script ends in one way: with the report of their outcomes. -/
theorem scriptEnds_of_finishes (path : String) (read : Expr.read text = .ok forms)
    {outcomes : List Outcome} {store : Store}
    (finishes : Session.Finishes text forms outcomes store) {report : Report Fault} {left : Store}
    : ScriptEnds path text report left ↔ report = scriptReport path outcomes ∧ left = store := by
  rw [scriptEnds_iff read]
  constructor
  · rintro ⟨outcomes', finishes', rfl⟩
    obtain ⟨rfl, rfl⟩ := finishes'.unique finishes
    exact ⟨rfl, rfl⟩
  · rintro ⟨rfl, rfl⟩
    exact ⟨outcomes, finishes, rfl⟩

/-- Where forms finish, the plain shell that is given them printed comes to one report and store:
their outcomes shown, and what they leave.
-/
theorem plainComesTo_iff (read : Expr.read text = .ok forms) (noQuit : .symbol quitWord ∉ forms)
    {outcomes : List Outcome} {store : Store}
    (finishes : Session.Finishes text forms outcomes store) {report : Report InputFault}
    {left : Store}
    : PlainComesTo (printed forms) outcomes.length report left
      ↔ report = ⟨outcomes.filterMap (outcomeLine? false), none⟩ ∧ left = store := by
  have comes := plainComesTo_of_finishes read noQuit finishes
  constructor
  · exact fun comes' => comes'.unique comes
  · rintro ⟨rfl, rfl⟩
    exact comes

/-- A script and the plain shell that is given its forms, each printed on a line of its own, agree.
Where every form has a value, both end, and only so, without a fault and with the same lines and the
same store. Where a form fails behind others that have values, the script ends, and only so, with the
lines of these and with the failure as its fault; after as many lines, the plain shell has shown the
same and then the failure, in the same store, and what it shows in the end begins with that. There
are no other cases in which either of them ends.
-/
theorem script_and_plain_agree (path : String) (read : Expr.read text = .ok forms)
    (noQuit : .symbol quitWord ∉ forms)
    : (∀ values store,
        Succeeds text forms values store
        → (∀ report left,
            ScriptEnds path text report left
            ↔ report = ⟨values.filterMap valueLine?, none⟩ ∧ left = store)
          ∧ ∀ report left,
              PlainEnds (printed forms) report left
              ↔ report = ⟨values.filterMap valueLine?, none⟩ ∧ left = store)
      ∧ (∀ values error store,
          FailsBehind text forms values error store
          → (∀ report left,
              ScriptEnds path text report left
              ↔ report = ⟨values.filterMap valueLine?, some (.script path (.eval error))⟩
                ∧ left = store)
            ∧ (∀ report left,
                PlainComesTo (printed forms) (values.length + 1) report left
                ↔ report = ⟨values.filterMap valueLine? ++ ["Error: " ++ error.message], none⟩
                  ∧ left = store)
            ∧ ∀ report later,
                PlainEnds (printed forms) report later
                → ∃ more,
                    report.lines
                    = values.filterMap valueLine? ++ ("Error: " ++ error.message) :: more)
      ∧ ((∃ report left, ScriptEnds path text report left)
            ∨ (∃ report left, PlainEnds (printed forms) report left)
          → (∃ values store, values.length = forms.length ∧ Succeeds text forms values store)
            ∨ ∃ values error store,
                values.length < forms.length ∧ FailsBehind text forms values error store) := by
  refine ⟨?successful, ?failing, ?exhaustive⟩
  case successful =>
    intro values store succeeds
    have count : (values.map Except.ok : List Outcome).length = forms.length :=
      (List.length_map _).trans succeeds.length
    refine ⟨fun report left => ?_, fun report left => ?_⟩
    · rw [scriptEnds_of_finishes path read succeeds, scriptReport_values]
    · rw [plainEnds_iff read noQuit, ← count, plainComesTo_iff read noQuit succeeds, shown_values]
  case failing =>
    intro values error store fails
    have comes (report : Report InputFault) (left : Store)
        : PlainComesTo (printed forms) (values.length + 1) report left
          ↔ report = ⟨values.filterMap valueLine? ++ ["Error: " ++ error.message], none⟩
            ∧ left = store := by
      rw [← shown_failure, ← plainComesTo_iff read noQuit fails, List.length_append,
        List.length_map]
      rfl
    refine ⟨fun report left => ?_, comes, fun report later ends => ?_⟩
    · rw [scriptEnds_of_finishes path read fails, scriptReport_failure]
    · obtain ⟨more, lines⟩ := ends.begins read noQuit ((comes _ _).mpr ⟨rfl, rfl⟩)
      exact ⟨more, by rw [lines, List.append_assoc]; rfl⟩
  case exhaustive =>
    intro ends
    have finishes : ∃ outcomes store, Session.Finishes text forms outcomes store := by
      rcases ends with ⟨report, left, script⟩ | ⟨report, left, plain⟩
      · obtain ⟨outcomes, finishes, _⟩ := (scriptEnds_iff read).mp script
        exact ⟨outcomes, left, finishes⟩
      · exact finishes_of_plainEnds read noQuit plain
    obtain ⟨outcomes, store, depth, trace, finished⟩ := finishes
    rcases outcomes_of_runForms finished with
      ⟨values, rfl, length⟩ | ⟨values, error, rfl, shorter⟩
    · exact .inl ⟨values, store, length, depth, trace, finished⟩
    · exact .inr ⟨values, error, store, shorter, depth, trace, finished⟩

/-- A script with a form over two lines and one that fails. -/
theorem failing_script_agrees
    : ∃ store,
        ScriptEnds "start.scm" "0\n(define\n  x 0)\n()\n0"
          ⟨["0"], some (.script "start.scm" (.eval (.emptyForm (.list []))))⟩ store
        ∧ PlainComesTo (encode "0\n(define x 0)\n()\n0\n") 3
            ⟨["0", "Error: unknown expression type: ()"], none⟩ store := by
  have read
      : Expr.read "0\n(define\n  x 0)\n()\n0"
        = .ok [.number .zero, .form .definition [.symbol "x", .number .zero], .list [],
            .number .zero] := by
    decide +kernel
  have text
      : printed [.number .zero, .form .definition [.symbol "x", .number .zero], .list [],
          .number .zero] = encode "0\n(define x 0)\n()\n0\n" := by
    decide +kernel
  have words
      : "Error: " ++ (EvalError.emptyForm (.list [])).message
        = "Error: unknown expression type: ()" := by
    decide +kernel
  have fails
      : ∃ store,
          FailsBehind "0\n(define\n  x 0)\n()\n0"
            [.number .zero, .form .definition [.symbol "x", .number .zero], .list [], .number .zero]
            [.integer .zero, .unspecified] (.emptyForm (.list [])) store :=
    ⟨_, 2, _, rfl⟩
  obtain ⟨store, fails⟩ := fails
  obtain ⟨_, failing, _⟩ := script_and_plain_agree "start.scm" read (by decide)
  obtain ⟨script, comes, _⟩ := failing _ _ _ fails
  rw [← text, ← words]
  exact ⟨store, (script _ _).mpr ⟨rfl, rfl⟩, (comes _ _).mpr ⟨rfl, rfl⟩⟩

end Drivers

end MiniLisp.Shell
