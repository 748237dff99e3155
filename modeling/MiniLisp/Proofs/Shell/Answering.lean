import MiniLisp.Proofs.Shell.PrintedForms
import MiniLisp.Proofs.Simulation.Traces

/-! Requests answered in turn.
What is shown for a line stays, whatever follows it, and the lines of printed forms are answered as
the forms themselves run, up to the first that fails.
-/

namespace MiniLisp.Shell

open MiniLisp.Text Session

-----------------------------------------------------------------------------------------
-- Lines answered in turn
-----------------------------------------------------------------------------------------

section Lines

variable {depth : Nat} {env : FrameId} {machine : Machine}

/-- Requests go on behind the response to a line. -/
theorem answer_line (text : String) (rest : List Request)
    : (answer depth env (.line text :: rest)).run machine
      = ((respond depth env false text).run machine).bind fun ended =>
          ((answer depth env rest).run ended.2).bind fun last =>
            .ok (last.1.after ended.1, last.2) :=
  rfl

/-- A line and what follows it are answered where the line is and what follows it is from there. -/
theorem answer_line_eq_ok {text : String} {rest : List Request}
    {ended : Report InputFault × Machine}
    : (answer depth env (.line text :: rest)).run machine = .ok ended
      ↔ ∃ shown middle more after,
          (respond depth env false text).run machine = .ok (shown, middle)
          ∧ (answer depth env rest).run middle = .ok (more, after)
          ∧ ended = (more.after shown, after) := by
  simp only [answer, Run.run_bind_eq_ok, Run.run_pure, Except.ok.injEq]
  constructor
  · rintro ⟨shown, middle, done, more, after, last, rfl⟩
    exact ⟨shown, middle, more, after, done, last, rfl⟩
  · rintro ⟨shown, middle, more, after, done, last, rfl⟩
    exact ⟨shown, middle, done, more, after, last, rfl⟩

/-- More depth changes nothing about requests that are answered, by induction on them. -/
theorem answer_deeper {more : Nat} (le : depth ≤ more) {requests : List Request}
    {ended : Report InputFault × Machine}
    (finished : (answer depth env requests).run machine = .ok ended)
    : (answer more env requests).run machine = .ok ended := by
  induction requests generalizing machine ended with
  | nil => exact finished
  | cons request rest ih =>
      cases request with
      | quit | notText => exact finished
      | line text =>
          obtain ⟨shown, middle, report, after, done, last, rfl⟩ := answer_line_eq_ok.mp finished
          refine answer_line_eq_ok.mpr ⟨shown, middle, report, after, ?_, ih last, rfl⟩
          rw [respond, Run.run_bind_eq_ok] at done ⊢
          obtain ⟨outcomes, left, ran, shows⟩ := done
          exact ⟨outcomes, left, runText_deeper le ran, shows⟩

/-- The request ends the shell: everything but a line does. -/
def Request.ends : Request → Bool
  | line _ => false
  | quit | notText => true

/-- Requests behind one that ends the shell are not answered, by induction on those up to there. -/
theorem answer_append_of_ends {front : List Request} (ends : front.any Request.ends = true)
    (back : List Request)
    : answer depth env (front ++ back) = answer depth env front := by
  induction front with
  | nil => cases ends
  | cons request front ih =>
      cases request with
      | quit | notText => rfl
      | line text =>
          have later : front.any Request.ends = true := ends
          simp only [List.cons_append, answer, ih later]

/-- Requests behind some that do not end the shell are answered from where these leave off; by
induction on these.
-/
theorem answer_append_eq_ok {front back : List Request} (goesOn : front.any Request.ends = false)
    {ended : Report InputFault × Machine}
    : (answer depth env (front ++ back)).run machine = .ok ended
      ↔ ∃ shown middle more after,
          (answer depth env front).run machine = .ok (⟨shown, none⟩, middle)
          ∧ (answer depth env back).run middle = .ok (more, after)
          ∧ ended = (more.after shown, after) := by
  induction front generalizing machine ended with
  | nil =>
      constructor
      · exact fun finished => ⟨[], machine, ended.1, ended.2, rfl, finished, rfl⟩
      · rintro ⟨shown, middle, more, after, nothing, finished, rfl⟩
        cases nothing
        exact finished
  | cons request front ih =>
      cases request with
      | quit | notText => cases goesOn
      | line text =>
          have later : front.any Request.ends = false := goesOn
          simp only [List.cons_append, answer_line_eq_ok, ih later]
          constructor
          · rintro ⟨shown, middle, _, after, done, further, rfl⟩
            obtain ⟨shown', middle', more, _, first, last, same⟩ := further
            obtain ⟨rfl, rfl⟩ := Prod.mk.inj same
            refine ⟨shown ++ shown', middle', more, after, ?_, last, ?_⟩
            · exact ⟨shown, middle, ⟨shown', none⟩, middle', done, first, rfl⟩
            · simp only [Report.after, List.append_assoc]
          · rintro ⟨_, middle', more, after, further, last, rfl⟩
            obtain ⟨shown, middle, ⟨lines, _⟩, _, done, first, same⟩ := further
            cases same
            refine ⟨shown, middle, more.after lines, after, done, ?_, ?_⟩
            · exact ⟨lines, middle', more, after, first, last, rfl⟩
            · simp only [Report.after, List.append_assoc]

/-- What has been shown for lines stays, whatever requests follow them. -/
theorem answer_lines_append {texts : List String} {rest : List Request}
    {ended : Report InputFault × Machine}
    (finished : (answer depth env (texts.map .line ++ rest)).run machine = .ok ended)
    : ∃ shown middle more after,
        (answer depth env (texts.map .line)).run machine = .ok (⟨shown, none⟩, middle)
        ∧ (answer depth env rest).run middle = .ok (more, after)
        ∧ ended = (more.after shown, after) := by
  have goesOn : (texts.map Request.line).any Request.ends = false := by
    simp [Request.ends]
  exact (answer_append_eq_ok goesOn).mp finished

end Lines

-----------------------------------------------------------------------------------------
-- Forms in order
-----------------------------------------------------------------------------------------

section Forms

variable {depth : Nat} {env : FrameId} {machine after other : Machine}

/-- The response to a printed form is what is shown for the form. -/
theorem respond_form_eq_ok {form : Expr} (readable : form.Readable) {shown : List String}
    : (respond depth env false form.text).run machine = .ok (shown, after)
      ↔ ∃ outcomes,
          (runForms depth form.text env [form]).run
              { machine with trace := machine.trace.push (.read 1 form.text) }
            = .ok (outcomes, after)
          ∧ shown = outcomes.filterMap (outcomeLine? false) := by
  simp only [respond, Run.run_bind_eq_ok, runText_run, readable.read_text, Run.run_pure,
    List.length_singleton]
  constructor
  · rintro ⟨outcomes, _, finished, ended⟩
    cases ended
    exact ⟨outcomes, finished, rfl⟩
  · rintro ⟨outcomes, finished, rfl⟩
    exact ⟨outcomes, after, finished, rfl⟩

/-- Where a form finishes, so does the response to it printed, from any machine with that store. -/
theorem respond_of_evaluate {form : Expr} (readable : form.Readable)
    {outcome : Except EvalError Value}
    (done : (evaluate depth form env).on machine = .ok (outcome, after))
    (same : machine.store = other.store)
    : ∃ trace,
        (respond depth env false form.text).run other
        = .ok ((outcomeLine? false (outcome.mapError .eval)).toList, ⟨after.store, trace⟩) := by
  let noted : Machine := { other with trace := other.trace.push (.read 1 form.text) }
  have sameNoted : machine.store = noted.store := same
  obtain ⟨trace, again⟩ := SameStore.evaluate_again done sameNoted
  cases outcome with
  | error error =>
      refine ⟨trace.push (.abandon form.text),
        (respond_form_eq_ok readable).mpr ⟨[.error (.eval error)], ?_, rfl⟩⟩
      exact runForms_cons_eq_ok.mpr (.inl ⟨error, _, again, rfl⟩)
  | ok value =>
      refine ⟨trace, (respond_form_eq_ok readable).mpr ⟨[.ok value], ?_, by cases value <;> rfl⟩⟩
      exact runForms_cons_eq_ok.mpr (.inr ⟨value, _, [], _, again, rfl, rfl⟩)

/-- Where the response to a printed form finishes, so does the form, from any machine with that
store.
-/
theorem evaluate_of_respond {form : Expr} (readable : form.Readable) {shown : List String}
    (response : (respond depth env false form.text).run machine = .ok (shown, after))
    (same : machine.store = other.store)
    : ∃ outcome trace,
        (evaluate depth form env).on other = .ok (outcome, ⟨after.store, trace⟩) := by
  obtain ⟨outcomes, finished, _⟩ := (respond_form_eq_ok readable).mp response
  rcases runForms_cons_eq_ok.mp finished with
    ⟨error, middle, done, ended⟩ | ⟨value, middle, tail, last, done, goesOn, ended⟩
  · obtain ⟨_, rfl⟩ := Prod.mk.inj ended
    obtain ⟨trace, again⟩ := SameStore.evaluate_again done same
    exact ⟨.error error, trace, again⟩
  · obtain ⟨_, rfl⟩ := Prod.mk.inj ended
    obtain ⟨_, rfl⟩ := Prod.mk.inj (Except.ok.inj goesOn)
    obtain ⟨trace, again⟩ := SameStore.evaluate_again done same
    exact ⟨.ok value, trace, again⟩

variable {forms : List Expr} (readable : ∀ form ∈ forms, form.Readable) {text : String}

include readable

/-- Where forms run in order up to the first failure, the plain shell answers their lines up to
there, and shows what came of them; by induction on the forms.
-/
theorem answer_of_runForms {outcomes : List Outcome}
    (finished : (runForms depth text env forms).run machine = .ok (outcomes, after))
    (same : machine.store = other.store)
    : ∃ trace,
        (answer depth env ((forms.take outcomes.length).map fun form => .line form.text)).run other
        = .ok (⟨outcomes.filterMap (outcomeLine? false), none⟩, ⟨after.store, trace⟩) := by
  induction forms generalizing outcomes machine after other with
  | nil =>
      obtain ⟨rfl, rfl⟩ := Prod.mk.inj (Except.ok.inj finished)
      exact ⟨other.trace, by rw [same]; rfl⟩
  | cons form rest ih =>
      rw [List.forall_mem_cons] at readable
      rcases runForms_cons_eq_ok.mp finished with
        ⟨error, middle, done, ended⟩ | ⟨value, middle, tail, last, done, goesOn, ended⟩
      · obtain ⟨rfl, rfl⟩ := Prod.mk.inj ended
        obtain ⟨trace, response⟩ := respond_of_evaluate readable.1 done same
        exact ⟨trace, answer_line_eq_ok.mpr ⟨_, _, ⟨[], none⟩, _, response, rfl, rfl⟩⟩
      · obtain ⟨rfl, rfl⟩ := Prod.mk.inj ended
        obtain ⟨trace, response⟩ := respond_of_evaluate readable.1 done same
        have kept : middle.store = (⟨middle.store, trace⟩ : Machine).store := rfl
        obtain ⟨trace', answers⟩ := ih readable.2 goesOn kept
        refine ⟨trace', answer_line_eq_ok.mpr ⟨_, _, _, _, response, answers, ?_⟩⟩
        simp only [List.filterMap_eq_flatMap_toList, List.flatMap_cons]
        rfl

/-- Where the plain shell answers the lines of forms, these run in order up to the first failure; by
induction on the forms.
-/
theorem runForms_of_answer {report : Report InputFault}
    (finished
      : (answer depth env (forms.map fun form => .line form.text)).run machine = .ok (report, after))
    (same : machine.store = other.store) (text : String)
    : ∃ outcomes ended, (runForms depth text env forms).run other = .ok (outcomes, ended) := by
  induction forms generalizing report machine after other with
  | nil => exact ⟨[], other, rfl⟩
  | cons form rest ih =>
      rw [List.forall_mem_cons] at readable
      obtain ⟨shown, middle, more, last, response, goesOn, _⟩ := answer_line_eq_ok.mp finished
      obtain ⟨outcome, trace, again⟩ := evaluate_of_respond readable.1 response same
      cases outcome with
      | error error => exact ⟨_, _, runForms_cons_eq_ok.mpr (.inl ⟨error, _, again, rfl⟩)⟩
      | ok value =>
          have kept : middle.store = (⟨middle.store, trace⟩ : Machine).store := rfl
          obtain ⟨outcomes, ended, run⟩ := ih readable.2 goesOn kept
          exact ⟨_, _, runForms_cons_eq_ok.mpr
            (.inr ⟨value, _, outcomes, ended, again, run, rfl⟩)⟩

end Forms

end MiniLisp.Shell
