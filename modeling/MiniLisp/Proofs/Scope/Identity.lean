import MiniLisp.Proofs.Invariants.Moments

/-! The identities of closures.
Closures are numbered as they are made. A log holds all that have been made, each at the place of
its identity, and runs add to its end, also if they fail or are interrupted. So a closure's identity
tells which one it is, and equality as programs see it is equality.
-/

namespace MiniLisp

/-- The closure stands in the log, at the place of its identity. -/
def Closure.LoggedIn (log : List Closure) (closure : Closure) : Prop :=
  log[closure.id]? = some closure

section Logs

variable {log more : List Closure}

theorem Closure.LoggedIn.mono (grows : log <+: more) {closure : Closure}
    (logged : closure.LoggedIn log)
    : closure.LoggedIn more :=
  getElem?_of_extends grows logged

theorem Closure.LoggedIn.id_lt {closure : Closure} (logged : closure.LoggedIn log)
    : closure.id < log.length :=
  (List.getElem?_eq_some_iff.mp logged).1

theorem Closure.LoggedIn.eq_of_id {left right : Closure} (logged : left.LoggedIn log)
    (logged' : right.LoggedIn log) (same : left.id = right.id)
    : left = right :=
  Option.some.inj (logged.symm.trans (same ▸ logged'))

/-- The value is no closure, or one that stands in the log. -/
abbrev Value.LoggedIn (log : List Closure) (value : Value) : Prop :=
  value.IfClosure (Closure.LoggedIn log)

theorem Value.LoggedIn.mono (grows : log <+: more) {value : Value} (logged : value.LoggedIn log)
    : value.LoggedIn more :=
  fun closure same => (logged closure same).mono grows

/-- Values of one log are equal for programs only if they are, by cases on what they are. -/
theorem Value.LoggedIn.eq_of_same {left right : Value} (logged : left.LoggedIn log)
    (logged' : right.LoggedIn log) (same : left.same right = true)
    : left = right := by
  cases left <;> cases right
  case closure.closure closure other =>
    have ids : closure.id = other.id := of_decide_eq_true same
    rw [(logged closure rfl).eq_of_id (logged' other rfl) ids]
  all_goals simp_all [Value.same]

/-- A value of the log is not equal to a closure that comes after it. -/
theorem Value.LoggedIn.same_eq_false {value : Value} (logged : value.LoggedIn log)
    {closure : Closure} (later : log.length ≤ closure.id)
    : value.same (.closure closure) = false ∧ (Value.closure closure).same value = false := by
  cases value with
  | closure old =>
      have differ : old.id ≠ closure.id :=
        Nat.ne_of_lt (Nat.lt_of_lt_of_le (logged old rfl).id_lt later)
      exact ⟨decide_eq_false differ, decide_eq_false differ.symm⟩
  | integer _ | bool _ | primitive _ | unspecified => exact ⟨rfl, rfl⟩

end Logs

namespace Store

/-- The log has all the closures made in the store, and those that frames hold stand in it. -/
structure LoggedIn (log : List Closure) (store : Store) : Prop where
  count : store.closures = log.length
  held : ∀ {id name value}, store.local? id name = some value → value.LoggedIn log

variable {log more : List Closure} {store : Store}

theorem loggedIn_empty : (∅ : Store).LoggedIn [] :=
  ⟨rfl, nofun⟩

theorem LoggedIn.lookup? (logged : store.LoggedIn log) {env : FrameId} {name : String}
    {value : Value} (found : store.lookup? env name = some value)
    : value.LoggedIn log := by
  obtain ⟨id, _, bound⟩ := List.exists_of_findSome?_eq_some found
  exact logged.held bound

theorem LoggedIn.bind (logged : store.LoggedIn log) {value : Value} (given : value.LoggedIn log)
    (env : FrameId) (name : String)
    : (store.bind env name value).LoggedIn log :=
  ⟨logged.count, forall_local?_bind (fun _ _ _ => logged.held) given env name _ _ _⟩

theorem LoggedIn.addFrame (logged : store.LoggedIn log) {frame : Frame}
    (given : ∀ name value, frame.bindings.get? name = some value → value.LoggedIn log)
    : (store.addFrame frame).2.LoggedIn log :=
  ⟨logged.count, forall_local?_addFrame (fun _ _ _ => logged.held) given _ _ _⟩

theorem LoggedIn.addGlobal (logged : store.LoggedIn log) : store.addGlobal.2.LoggedIn log :=
  logged.addFrame fun name value bound closure same =>
    absurd same (ne_closure_of_globals name value bound closure)

/-- A closure made comes at the end of the log, where its identity says. -/
theorem LoggedIn.makeClosure (logged : store.LoggedIn log) (parameters : List String) (body : Expr)
    (env : FrameId)
    : (store.makeClosure parameters body env).2.LoggedIn
          (log ++ [(store.makeClosure parameters body env).1])
      ∧ (store.makeClosure parameters body env).1.LoggedIn
          (log ++ [(store.makeClosure parameters body env).1]) := by
  have grows : log <+: log ++ [(store.makeClosure parameters body env).1] :=
    List.prefix_append _ _
  refine ⟨⟨?_, fun bound => (logged.held bound).mono grows⟩, ?_⟩
  · rw [List.length_append, ← logged.count]
    rfl
  · have place : (store.makeClosure parameters body env).1.id = log.length := logged.count
    rw [Closure.LoggedIn, place, List.getElem?_concat_length]

end Store

-----------------------------------------------------------------------------------------
-- Interrupted runs
-----------------------------------------------------------------------------------------

/-- Evaluation that is interrupted at the first expression, in its frame and store, at which it is to
stop: that is not evaluated, and the store is left as it is then. What has been noted down has no say
in it, so a run is interrupted where another from the same store is.
-/
def evaluateUnless (stop : Expr → FrameId → Store → Bool) : Nat → Evaluator
  | 0 => fun _ _ => Eval.abort .tooDeep
  | depth + 1 => fun expr env => ExceptT.mk fun machine =>
      if stop expr env machine.store then .ok (.error interruption, machine)
      else (Eval.step (evaluateUnless stop depth) expr env).on machine

theorem evaluateUnless_on (stop : Expr → FrameId → Store → Bool) (depth : Nat) (expr : Expr)
    (env : FrameId) (machine : Machine)
    : (evaluateUnless stop (depth + 1) expr env).on machine
      = if stop expr env machine.store then .ok (.error interruption, machine)
        else (Eval.step (evaluateUnless stop depth) expr env).on machine :=
  rfl

/-- What is to stop nowhere is evaluated, by induction on the depth. -/
theorem evaluateUnless_never (depth : Nat)
    : evaluateUnless (fun _ _ _ => false) depth = evaluate depth := by
  induction depth with
  | zero => rfl
  | succ depth ih =>
      funext expr env machine
      exact congrArg (fun evaluate => (Eval.step evaluate expr env).on machine) ih

namespace Identity

open Store Correspondence

/-- The closures are the same one, which stands in the log. -/
def SameLogged (log : List Closure) (left right : Closure) : Prop :=
  left = right ∧ left.LoggedIn log

theorem alike_of_loggedIn {log : List Closure} {value : Value} (logged : value.LoggedIn log)
    : Value.Alike (SameLogged log) value value :=
  Value.alike_self fun closure same => ⟨rfl, logged closure same⟩

/-- The correspondence of a run with itself in a store whose closures stand in the log. -/
def simulation : Simulation where
  World := List Closure
  Extends := (· <+: ·)
  Mode := Unit
  frames _ _ := Eq
  closures := SameLogged
  stores log store store' := store = store' ∧ store.LoggedIn log
  names _ := Eq
  code _ := Eq
  procedures _ parameters body parameters' body' := body = body' ∧ parameters = parameters'
  fillings _ := Eq
  malformed := Eq
  firstMayStop := False
  secondMayStop := False
  preorder := { refl := List.prefix_refl, trans := fun _ _ _ => List.IsPrefix.trans }
  frames_mono _ frame := frame
  closures_mono grows together := ⟨together.1, together.2.mono grows⟩
  fillings_mono _ together := together
  same _ one another := by rw [one.1, another.1]
  code_of_closures := by
    rintro log closure _ ⟨rfl, _⟩
    exact ⟨(), rfl, rfl, rfl⟩
  procedures_length procedures := congrArg List.length procedures.2
  lookup := by
    rintro log _ store _ env _ name _ ⟨rfl, logged⟩ rfl rfl
    refine ⟨?_, fun _ => rfl⟩
    cases found : store.lookup? env name with
    | none => exact .none
    | some value => exact .some (alike_of_loggedIn (logged.lookup? found))
  bind := by
    rintro log _ store _ env _ name _ value value' ⟨rfl, logged⟩ rfl rfl together
    obtain ⟨rfl, given⟩ := together.diagonal fun _ _ => id
    exact ⟨rfl, logged.bind given env name⟩
  make := by
    rintro log _ store _ env _ parameters body _ _ ⟨rfl, logged⟩ rfl ⟨rfl, rfl⟩
    obtain ⟨after, made⟩ := logged.makeClosure parameters body env
    exact ⟨_, List.prefix_append _ _, ⟨rfl, after⟩, rfl, made⟩
  spawn := by
    rintro log _ store _ env _ parameters body _ _ ⟨rfl, logged⟩ rfl ⟨rfl, rfl⟩
    exact ⟨log, List.prefix_refl log, ⟨rfl, logged.addFrame (by simp)⟩, rfl⟩
  fill := by
    rintro log store _ name _ names _ body _ frame _ value value' ⟨rfl, logged⟩ ⟨⟩ together
    obtain ⟨rfl, given⟩ := together.diagonal fun _ _ => id
    exact ⟨log, List.prefix_refl log, ⟨rfl, logged.bind given frame name⟩, rfl⟩
  filled := by
    rintro log body _ frame _ ⟨⟩
    exact ⟨(), rfl, rfl⟩

/-- Interrupted runs correspond to themselves, by induction on the depth. -/
theorem relatedEvaluators_evaluateUnless (stop : Expr → FrameId → Store → Bool) (depth : Nat)
    : simulation.RelatedEvaluators (evaluateUnless stop depth) (evaluateUnless stop depth) := by
  induction depth with
  | zero => exact fun _ _ _ _ _ _ _ _ => related_abort .tooDeep .tooDeep
  | succ depth ih =>
      rintro log mode env _ expr _ rfl rfl machine other ⟨same, logged⟩
      rw [evaluateUnless_on, evaluateUnless_on, ← same]
      split
      · exact .finished ⟨log, List.prefix_refl log, ⟨same, logged⟩, .error (.overflow .add)⟩
      · have congruent : simulation.Congruent mode expr expr :=
          @congruent_self simulation.toCorrespondence mode (fun _ => rfl) (fun _ => rfl)
            (fun _ _ => ⟨rfl, rfl⟩) (fun _ => rfl) expr
        have frames : simulation.frames log mode env env := rfl
        exact Simulation.step_congruent ih frames congruent machine other ⟨same, logged⟩

theorem relatedEvaluators_evaluate (depth : Nat)
    : simulation.RelatedEvaluators (evaluate depth) (evaluate depth) := by
  rw [← evaluateUnless_never]
  exact relatedEvaluators_evaluateUnless _ depth

end Identity

-----------------------------------------------------------------------------------------
-- What runs leave
-----------------------------------------------------------------------------------------

/-- What a run that gives these values leaves of a store whose closures stand in the log: all of them
and the values stand in a log that has grown.
-/
def Store.StaysLogged (log : List Closure) (after : Store) (values : List Value) : Prop :=
  ∃ more, log <+: more ∧ after.LoggedIn more ∧ ∀ value ∈ values, value.LoggedIn more

section Runs

open Identity

variable {log : List Closure} {machine after : Machine} {depth : Nat} {env : FrameId}
  (logged : machine.store.LoggedIn log)

include logged

theorem Eval.staysLogged_of_related {evaluation : Eval Value}
    (related : simulation.Related log simulation.Values evaluation evaluation)
    {outcome : Except EvalError Value} (finished : evaluation.on machine = .ok (outcome, after))
    : after.store.StaysLogged log (Outcome.values (outcome.mapError .eval)) := by
  have stores : simulation.stores log machine.store machine.store := ⟨rfl, logged⟩
  obtain ⟨more, grows, ⟨_, loggedAfter⟩, outcomes⟩ :=
    Simulation.itself_of_related not_false stores related finished
  exact ⟨more, grows, loggedAfter, outcomes.diagonal fun _ _ => id⟩

variable {evaluate : Evaluator} (agree : simulation.RelatedEvaluators evaluate evaluate)

include agree

theorem Eval.staysLogged_evaluate {expr : Expr} {outcome : Except EvalError Value}
    (finished : (evaluate expr env).on machine = .ok (outcome, after))
    : after.store.StaysLogged log (Outcome.values (outcome.mapError .eval)) :=
  staysLogged_of_related logged (agree log () env env expr expr rfl rfl) finished

theorem Eval.staysLogged_apply {callee : Value} {args : List Value}
    (given : ∀ value ∈ callee :: args, value.LoggedIn log) {outcome : Except EvalError Value}
    (finished : (Eval.apply evaluate callee args).on machine = .ok (outcome, after))
    : after.store.StaysLogged log (Outcome.values (outcome.mapError .eval)) := by
  rw [List.forall_mem_cons] at given
  have operands : List.Forall₂ (simulation.Values log) args args :=
    List.forall₂_same.mpr fun value member => alike_of_loggedIn (given.2 value member)
  exact staysLogged_of_related logged
    (Simulation.related_apply agree (alike_of_loggedIn given.1) operands) finished

omit agree in
theorem Session.staysLogged_runText {text : String} {outcomes : List Outcome}
    (finished : (runText depth text env).run machine = .ok (outcomes, after))
    : after.store.StaysLogged log (outcomes.flatMap Outcome.values) := by
  rw [runText_run] at finished
  split at finished
  · next forms _ =>
    let noted : Machine := { machine with trace := machine.trace.push (.read forms.length text) }
    have frames : simulation.frames log () env env := rfl
    have stores : simulation.stores log noted.store noted.store := ⟨rfl, logged⟩
    obtain ⟨more, grows, ⟨_, loggedAfter⟩, results⟩ :=
      Simulation.itself_of_runForms not_false stores (relatedEvaluators_evaluate depth) frames
        (fun _ => rfl) finished
    refine ⟨more, grows, loggedAfter, fun value member => ?_⟩
    obtain ⟨outcome, among, member⟩ := List.mem_flatMap.mp member
    exact (results outcome among).diagonal (fun _ _ => id) value member
  · obtain ⟨rfl, rfl⟩ := Prod.mk.inj (Except.ok.inj finished)
    exact ⟨log, List.prefix_refl log, logged, fun _ member => nomatch member⟩

end Runs

end MiniLisp
