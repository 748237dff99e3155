import MiniLisp.Proofs.Evaluation.Depth
import MiniLisp.Proofs.Scope.Lookup
import MiniLisp.Proofs.Simulation.Rules
import MiniLisp.Session

/-! Corresponding programs: forms run in order up to the first failure. -/

namespace MiniLisp

/-- Outcomes that agree: values that are alike, or errors that are. -/
inductive Outcome.Alike (closures : Closure → Closure → Prop)
    (malformed : Malformed → Malformed → Prop)
    : Outcome → Outcome → Prop
  | value {value value'} (together : Value.Alike closures value value')
    : Alike closures malformed (.ok value) (.ok value')
  | failure {error error'} (together : EvalError.Alike closures malformed error error')
    : Alike closures malformed (.error (.eval error)) (.error (.eval error'))

theorem Outcome.Alike.imp {closures weaker : Closure → Closure → Prop}
    {malformed : Malformed → Malformed → Prop}
    (weaken : ∀ left right, closures left right → weaker left right) {outcome outcome' : Outcome}
    (alike : Outcome.Alike closures malformed outcome outcome')
    : Outcome.Alike weaker malformed outcome outcome' := by
  cases alike with
  | value together => exact .value (together.imp weaken)
  | failure together => exact .failure (together.imp weaken fun _ _ malformed => malformed)

theorem Correspondence.Outcomes.alike {c : Correspondence} {w : c.World}
    {outcome outcome' : Except EvalError Value}
    (together : c.Outcomes w (c.Values w) outcome outcome')
    : Outcome.Alike (c.closures w) c.malformed (outcome.mapError .eval)
        (outcome'.mapError .eval) := by
  cases together with
  | ok together => exact .value together
  | error together => exact .failure together

/-- The global names mean the same everywhere. -/
theorem globals_together (closures : Closure → Closure → Prop) (name : String)
    : Option.Rel (Value.Alike closures) (Store.globals.get? name) (Store.globals.get? name) := by
  refine Bindings.get?_insertAll_rel (List.forall₂_same.mpr fun entry member => ?_) .none
  refine ⟨Iff.rfl, ?_⟩
  rcases List.mem_append.mp member with literal | given
  · rcases List.mem_pair.mp literal with rfl | rfl
    · exact .bool true
    · exact .bool false
  · obtain ⟨primitive, _, rfl⟩ := List.mem_map.mp given
    exact .primitive primitive

namespace Session

/-- The forms, run in order in a fresh global environment, finish with these outcomes and leave this
store.
-/
def Finishes (text : String) (program : List Expr) (outcomes : List Outcome) (store : Store)
    : Prop :=
  ∃ depth trace,
    (runForms depth text (Store.addGlobal ∅).1 program).run ⟨(Store.addGlobal ∅).2, #[]⟩
    = .ok (outcomes, ⟨store, trace⟩)

/-- Goes on with the forms after one that has ended like this. -/
def goOn (text : String) (rest : Run (List Outcome))
    : Except EvalError Value × Machine → Except Abort (List Outcome × Machine)
  | (.ok value, machine) =>
      (rest.run machine).bind fun ended => .ok (.ok value :: ended.1, ended.2)
  | (.error error, machine) =>
      .ok ([.error (.eval error)], { machine with trace := machine.trace.push (.abandon text) })

theorem runForms_cons (depth : Nat) (text : String) (env : FrameId) (form : Expr)
    (rest : List Expr) (machine : Machine)
    : (runForms depth text env (form :: rest)).run machine
      = ((evaluate depth form env).on machine).bind (goOn text (runForms depth text env rest)) := by
  rw [runForms, Run.run_bind]
  unfold Eval.on
  rcases (evaluate depth form env).run.run machine with _ | ⟨_ | _, middle⟩
  · rfl
  · rfl
  · simp only [Except.bind, goOn, Run.run_bind]
    rcases (runForms depth text env rest).run middle with _ | ⟨_, _⟩ <;> rfl

/-- Forms finish where the first of them fails, or has a value and the others finish from there. -/
theorem runForms_cons_eq_ok {depth : Nat} {text : String} {env : FrameId} {form : Expr}
    {rest : List Expr} {machine : Machine} {ended : List Outcome × Machine}
    : (runForms depth text env (form :: rest)).run machine = .ok ended
      ↔ (∃ error middle,
            (evaluate depth form env).on machine = .ok (.error error, middle)
            ∧ ended
              = ([.error (.eval error)], { middle with trace := middle.trace.push (.abandon text) }))
        ∨ ∃ value middle outcomes after,
            (evaluate depth form env).on machine = .ok (.ok value, middle)
            ∧ (runForms depth text env rest).run middle = .ok (outcomes, after)
            ∧ ended = (.ok value :: outcomes, after) := by
  rw [runForms_cons]
  rcases (evaluate depth form env).on machine with reason | ⟨error | value, middle⟩
  · simp [Except.bind]
  · simp [Except.bind, goOn, eq_comm]
  · simp only [Except.bind, goOn]
    cases last : (runForms depth text env rest).run middle with
    | error reason => simp [last]
    | ok tail =>
        obtain ⟨outcomes, after⟩ := tail
        simp [last, and_assoc, eq_comm]

/-- A text that can be read runs its forms, and one that cannot leaves the machine as it is. -/
theorem runText_run (depth : Nat) (text : String) (env : FrameId) (machine : Machine)
    : (runText depth text env).run machine
      = match Expr.read text with
        | .ok forms =>
            (runForms depth text env forms).run
              { machine with trace := machine.trace.push (.read forms.length text) }
        | .error error => .ok ([.error (.read error)], machine) := by
  unfold runText readText
  rw [Run.run_bind]
  cases Expr.read text <;> rfl

/-- More depth changes nothing about a program that finishes, by induction on its forms. -/
theorem runForms_deeper {depth more : Nat} (le : depth ≤ more) {text : String} {env : FrameId}
    {program : List Expr} {machine : Machine} {ended : List Outcome × Machine}
    (finished : (runForms depth text env program).run machine = .ok ended)
    : (runForms more text env program).run machine = .ok ended := by
  induction program generalizing machine ended with
  | nil => exact finished
  | cons form rest ih =>
      rcases runForms_cons_eq_ok.mp finished with
        ⟨error, middle, done, rfl⟩ | ⟨value, middle, outcomes, after, done, last, rfl⟩
      · have deep := Eval.within_evaluate le form env machine _ done
        exact runForms_cons_eq_ok.mpr (.inl ⟨error, middle, deep, rfl⟩)
      · have deep := Eval.within_evaluate le form env machine _ done
        exact runForms_cons_eq_ok.mpr (.inr ⟨value, middle, outcomes, after, deep, ih last, rfl⟩)

/-- So does a text, which is read at any depth. -/
theorem runText_deeper {depth more : Nat} (le : depth ≤ more) {text : String} {env : FrameId}
    {machine : Machine} {ended : List Outcome × Machine}
    (finished : (runText depth text env).run machine = .ok ended)
    : (runText more text env).run machine = .ok ended := by
  rw [runText_run] at finished ⊢
  split at finished
  · exact runForms_deeper le finished
  · exact finished

/-- A program finishes in one way only, whatever depth it was given. -/
theorem Finishes.unique {text : String} {program : List Expr} {outcomes outcomes' : List Outcome}
    {store store' : Store} (first : Finishes text program outcomes store)
    (second : Finishes text program outcomes' store')
    : outcomes = outcomes' ∧ store = store' := by
  obtain ⟨depth, trace, finished⟩ := first
  obtain ⟨depth', trace', finished'⟩ := second
  have same := ended_unique depth depth' finished finished' fun le => runForms_deeper le
  exact ⟨congrArg (·.1) same, congrArg (·.2.store) same⟩

end Session

namespace Simulation

open Session

variable {S : Simulation} {w w' : S.World}

/-- What came of corresponding forms. -/
abbrev Results (S : Simulation) (w : S.World) : Outcome → Outcome → Prop :=
  Outcome.Alike (S.closures w) S.malformed

/-- The ends of two runs belong together, form by form, in a world that extends the given one. -/
def EndAlike (S : Simulation) (w : S.World) (left right : List Outcome × Machine) : Prop :=
  ∃ w',
    S.Extends w w'
    ∧ S.stores w' left.2.store right.2.store
    ∧ List.Forall₂ (Results S w') left.1 right.1

/-- One more value in front of both. -/
theorem EndAlike.cons (grows : S.Extends w w') {value value' : Value}
    (first : S.Values w' value value') {left right : List Outcome × Machine}
    (alike : S.EndAlike w' left right)
    : S.EndAlike w (.ok value :: left.1, left.2) (.ok value' :: right.1, right.2) := by
  obtain ⟨last, grows', stores, results⟩ := alike
  exact ⟨last, trans_of S.Extends grows grows', stores,
    .cons (.value (values_mono grows' first)) results⟩

section Runs

variable {depth depth' : Nat} (agree : S.RelatedEvaluators (evaluate depth) (evaluate depth'))
  (mode : S.Mode) {env env' : FrameId}

include agree

/-- Corresponding forms in front of programs that end together, by induction on those forms. -/
theorem runForms_append_together {front front' : List Expr}
    (code : List.Forall₂ (S.code mode) front front') {text text' : String} {back back' : List Expr}
    (backs
      : ∀ {w : S.World} {machine machine' : Machine},
          S.frames w mode env env'
          → S.stores w machine.store machine'.store
          → EndTogether S.firstMayStop S.secondMayStop (S.EndAlike w)
              ((runForms depth text env back).run machine)
              ((runForms depth' text' env' back').run machine'))
    {machine machine' : Machine} (frames : S.frames w mode env env')
    (stores : S.stores w machine.store machine'.store)
    : EndTogether S.firstMayStop S.secondMayStop (S.EndAlike w)
        ((runForms depth text env (front ++ back)).run machine)
        ((runForms depth' text' env' (front' ++ back')).run machine') := by
  induction code generalizing w machine machine' with
  | nil => exact backs frames stores
  | cons head _ ih =>
      rw [List.cons_append, List.cons_append, runForms_cons, runForms_cons]
      refine (agree w mode env env' _ _ frames head machine machine' stores).bind
        fun left right together => ?_
      obtain ⟨outcome, middle⟩ := left
      obtain ⟨outcome', middle'⟩ := right
      obtain ⟨w', grows, after, outcomes⟩ := together
      cases outcomes with
      | ok first =>
          refine (ih (S.frames_mono grows frames) after).bind fun left right alike => ?_
          exact .finished (alike.cons grows first)
      | error first => exact .finished ⟨w', grows, after, .cons (.failure first) .nil⟩

/-- Corresponding programs end together, with outcomes that belong together form by form. -/
theorem runForms_together (frames : S.frames w mode env env') {program program' : List Expr}
    (code : List.Forall₂ (S.code mode) program program') (text text' : String)
    (machine machine' : Machine) (stores : S.stores w machine.store machine'.store)
    : EndTogether S.firstMayStop S.secondMayStop (S.EndAlike w)
        ((runForms depth text env program).run machine)
        ((runForms depth' text' env' program').run machine') := by
  rw [← List.append_nil program, ← List.append_nil program']
  refine runForms_append_together agree mode code (fun {w _ _} _ stores => ?_) frames stores
  exact .finished ⟨w, refl_of S.Extends w, stores, .nil⟩

end Runs

section Programs

variable (mode : S.Mode) (frames : S.frames w mode (Store.addGlobal ∅).1 (Store.addGlobal ∅).1)
  (stores : S.stores w (Store.addGlobal ∅).2 (Store.addGlobal ∅).2) {program program' : List Expr}
  (code : List.Forall₂ (S.code mode) program program') {text text' : String}
  {outcomes : List Outcome} {store : Store}

include frames stores code

/-- Where the first program finishes, so does the second, if it cannot be given up and has the depth
to keep up.
-/
theorem finishes_of_first (stays : ¬ S.secondMayStop)
    (agree : ∀ depth, ∃ depth', S.RelatedEvaluators (evaluate depth) (evaluate depth'))
    (finishes : Finishes text program outcomes store)
    : ∃ w' outcomes' store',
        Finishes text' program' outcomes' store'
        ∧ S.Extends w w'
        ∧ S.stores w' store store'
        ∧ List.Forall₂ (Results S w') outcomes outcomes' := by
  obtain ⟨depth, trace, finished⟩ := finishes
  obtain ⟨depth', agree⟩ := agree depth
  have ends := runForms_together agree mode frames code text text'
    ⟨(Store.addGlobal ∅).2, #[]⟩ ⟨(Store.addGlobal ∅).2, #[]⟩ stores
  rw [finished] at ends
  obtain ⟨right, ended, w', grows, after, results⟩ := ends.exists_right stays
  exact ⟨w', right.1, right.2.store, ⟨depth', right.2.trace, ended⟩, grows, after, results⟩

/-- Where the second program finishes, so does the first, if it cannot be given up and has the depth
to keep up.
-/
theorem finishes_of_second (stays : ¬ S.firstMayStop)
    (agree : ∀ depth', ∃ depth, S.RelatedEvaluators (evaluate depth) (evaluate depth'))
    (finishes : Finishes text' program' outcomes store)
    : ∃ w' outcomes' store',
        Finishes text program outcomes' store'
        ∧ S.Extends w w'
        ∧ S.stores w' store' store
        ∧ List.Forall₂ (Results S w') outcomes' outcomes := by
  obtain ⟨depth', trace, finished⟩ := finishes
  obtain ⟨depth, agree⟩ := agree depth'
  have ends := runForms_together agree mode frames code text text'
    ⟨(Store.addGlobal ∅).2, #[]⟩ ⟨(Store.addGlobal ∅).2, #[]⟩ stores
  rw [finished] at ends
  obtain ⟨left, ended, w', grows, after, results⟩ := ends.exists_left stays
  exact ⟨w', left.1, left.2.store, ⟨depth, left.2.trace, ended⟩, grows, after, results⟩

end Programs

end Simulation

end MiniLisp
