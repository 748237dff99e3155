import Mathlib.Logic.Relation
import MiniLisp.Proofs.Scope.Identity
import MiniLisp.Proofs.Sessions.Steps

/-! Equality as programs see it, at every moment of a session.
It is sound: values that are equal cannot be told apart, and a closure that is made is equal to none
of the values that were there before.
-/

namespace MiniLisp

/-- The values print alike, are called alike and are alike as operands, and if they are closures, they
have the same parameters, body and frame.
-/
structure Value.Interchangeable (left right : Value) : Prop where
  text : left.text = right.text
  closures
    : ∀ {closure other},
        left = .closure closure
        → right = .closure other
        → closure.parameters = other.parameters
          ∧ closure.body = other.body
          ∧ closure.env = other.env
  callee : ∀ evaluate args, Eval.apply evaluate left args = Eval.apply evaluate right args
  operand
    : ∀ evaluate callee front back,
        Eval.apply evaluate callee (front ++ left :: back)
        = Eval.apply evaluate callee (front ++ right :: back)

theorem Value.interchangeable_self (value : Value) : value.Interchangeable value where
  text := rfl
  closures one another := by
    obtain rfl := Value.closure.inj (one.symm.trans another)
    exact ⟨rfl, rfl, rfl⟩
  callee _ _ := rfl
  operand _ _ _ _ := rfl

-----------------------------------------------------------------------------------------
-- Closures made by evaluating a form
-----------------------------------------------------------------------------------------

namespace Eval

open MiniLisp.Expr

variable (depth : Nat) (names : List String) (body : Expr) (env : FrameId) (machine : Machine)

/-- A `lambda` comes to the closure that the store makes. -/
theorem on_lambda
    : ∃ after,
        (evaluate (depth + 1) (form .lambda [.list (symbols names), body]) env).on machine
        = .ok (.ok (.closure (machine.store.makeClosure names body env).1), after) := by
  rw [evaluate, step_form, evalForm_lambda, makeClosure_symbols]
  exact ⟨_, rfl⟩

/-- A definition with a list as its target binds the closure that the store makes. -/
theorem on_shorthand (name : String) (present : env < machine.store.frames.size)
    : ∃ after,
        (evaluate (depth + 1)
              (form .definition [.list (.symbol name :: symbols names), body]) env).on machine
          = .ok (.ok .unspecified, after)
        ∧ after.store.local? env name
          = some (.closure (machine.store.makeClosure names body env).1) := by
  rw [evaluate, step_form, evalForm_shorthand, makeClosure_symbols]
  refine ⟨_, rfl, ?_⟩
  have here : ((machine.store.makeClosure names body env).2.frame? env).isSome :=
    (Store.isSome_frame? _ env).mpr present
  exact (Store.local?_bind _ env env name name _).trans (if_pos ⟨rfl, rfl, here⟩)

end Eval

namespace Session

open Identity

-----------------------------------------------------------------------------------------
-- Moments of a session
-----------------------------------------------------------------------------------------

/-- What leads from one moment of a session to a later one: a step, or an evaluation or call that may
be interrupted inside.
-/
inductive Turn (state : State) : State → Prop
  | step {later} (step : Step state later) : Turn state later
  | eval {stop depth expr env outcome after} (present : env < state.store.frames.size)
    (finished : (evaluateUnless stop depth expr env).on state.machine = .ok (outcome, after))
    : Turn state (state.next after (Outcome.values (outcome.mapError .eval)))
  | apply {stop depth callee args outcome after}
    (known : ∀ value ∈ callee :: args, state.HasValue value)
    (finished
      : (Eval.apply (evaluateUnless stop depth) callee args).on state.machine = .ok (outcome, after))
    : Turn state (state.next after (Outcome.values (outcome.mapError .eval)))

/-- The log has all closures made in the session, and those that exist in it stand there. -/
structure State.LoggedIn (log : List Closure) (state : State) : Prop where
  store : state.store.LoggedIn log
  given : ∀ value ∈ state.given, value.LoggedIn log

section Logged

variable {log : List Closure} {state : State} (logged : state.LoggedIn log)

include logged

theorem State.LoggedIn.hasValue {value : Value} (known : state.HasValue value)
    : value.LoggedIn log := by
  cases known with
  | plain noClosure => exact fun closure same => absurd same (noClosure closure)
  | held bound => exact logged.store.held bound
  | given member => exact logged.given value member

/-- What a run leaves stands in a log that has grown, beside what was there. -/
theorem State.LoggedIn.next {machine : Machine} {values : List Value}
    (stays : machine.store.StaysLogged log values)
    : ∃ more, log <+: more ∧ (state.next machine values).LoggedIn more := by
  obtain ⟨more, grows, store, given⟩ := stays
  refine ⟨more, grows, store, List.forall_mem_append.mpr ⟨given, fun value member => ?_⟩⟩
  exact (logged.given value member).mono grows

theorem Step.loggedIn {later : State} (step : Step state later)
    : ∃ more, log <+: more ∧ later.LoggedIn more := by
  cases step with
  | global => exact ⟨log, List.prefix_refl log, logged.store.addGlobal, logged.given⟩
  | text _ finished => exact logged.next (staysLogged_runText logged.store finished)
  | @eval depth _ _ _ _ _ finished =>
      exact logged.next
        (Eval.staysLogged_evaluate logged.store (relatedEvaluators_evaluate depth) finished)
  | @apply depth _ _ _ _ known finished =>
      exact logged.next
        (Eval.staysLogged_apply logged.store (relatedEvaluators_evaluate depth)
          (fun value member => logged.hasValue (known value member)) finished)
  | spawn _ =>
      exact logged.next
        ⟨log, List.prefix_refl log, logged.store.addFrame (by simp), fun _ member => nomatch member⟩
  | @set env name value _ known =>
      refine logged.next ⟨log, List.prefix_refl log,
        logged.store.bind (logged.hasValue known) env name, fun old member => ?_⟩
      exact logged.store.held (Option.mem_toList.mp member)

theorem Turn.loggedIn {later : State} (turn : Turn state later)
    : ∃ more, log <+: more ∧ later.LoggedIn more := by
  cases turn with
  | step step => exact step.loggedIn logged
  | @eval stop depth _ _ _ _ _ finished =>
      exact logged.next
        (Eval.staysLogged_evaluate logged.store (relatedEvaluators_evaluateUnless stop depth)
          finished)
  | @apply stop depth _ _ _ _ known finished =>
      exact logged.next
        (Eval.staysLogged_apply logged.store (relatedEvaluators_evaluateUnless stop depth)
          (fun value member => logged.hasValue (known value member)) finished)

/-- All that exists at a later moment stands in a log that has grown, by induction on the turns. -/
theorem logged_of_turns {later : State} (turns : Relation.ReflTransGen Turn state later)
    : ∃ more, log <+: more ∧ later.LoggedIn more := by
  induction turns with
  | refl => exact ⟨log, List.prefix_refl log, logged⟩
  | tail _ turn ih =>
      obtain ⟨middle, grows, loggedMiddle⟩ := ih
      obtain ⟨more, grows', loggedLater⟩ := turn.loggedIn loggedMiddle
      exact ⟨more, grows.trans grows', loggedLater⟩

end Logged

theorem State.loggedIn_start : State.start.LoggedIn [] :=
  ⟨Store.loggedIn_empty, fun _ member => nomatch member⟩

-----------------------------------------------------------------------------------------
-- Equality
-----------------------------------------------------------------------------------------

/-- Equality is an equivalence of the values that exist, of which equal ones are interchangeable.
Primitives are equal if they have one name. The primitive `=` answers whether its operands are equal.
-/
structure State.EqualitySound (state : State) : Prop where
  equivalence
    : Equivalence fun left right : { value // state.HasValue value } =>
        left.1.same right.1 = true
  interchangeable
    : ∀ {left right},
        state.HasValue left
        → state.HasValue right
        → left.same right = true
        → left.Interchangeable right
  primitives
    : ∀ left right : Primitive,
        (Value.primitive left).same (.primitive right) = true ↔ left.name = right.name
  answer
    : ∀ evaluate left right machine,
        ∃ after,
          (Eval.apply evaluate (.primitive .equal) [left, right]).on machine
          = .ok (.ok (.bool (left.same right)), after)

/-- The closure is equal to no value that exists. -/
def State.Lacks (state : State) (closure : Closure) : Prop :=
  ∀ value,
    state.HasValue value
    → value.same (.closure closure) = false ∧ (Value.closure closure).same value = false

theorem State.LoggedIn.equalitySound {log : List Closure} {state : State}
    (logged : state.LoggedIn log)
    : state.EqualitySound := by
  have equal {left right : Value} (known : state.HasValue left) (known' : state.HasValue right)
      (same : left.same right = true) : left = right :=
    (logged.hasValue known).eq_of_same (logged.hasValue known') same
  refine ⟨⟨fun value => Value.same_self value.1, fun {left right} same => ?_,
    fun {left middle right} same same' => ?_⟩, fun {left right} known known' same => ?_,
    fun left right => ?_, fun evaluate left right machine => ⟨_, rfl⟩⟩
  · rw [equal left.2 right.2 same, Value.same_self]
  · rw [equal left.2 middle.2 same, same']
  · obtain rfl := equal known known' same
    exact left.interchangeable_self
  · rw [Primitive.name_inj, Value.same, decide_eq_true_iff]

/-- At every moment of a session equality is sound, and a `lambda` that is evaluated then makes a
closure that is equal to no value that exists or existed at an earlier moment. So does a definition
with a list as its target, which binds it.
-/
theorem equality_sound {earlier state : State}
    (begun : Relation.ReflTransGen Turn .start earlier)
    (went : Relation.ReflTransGen Turn earlier state)
    : state.EqualitySound
      ∧ (∀ depth names body env,
          ∃ closure after,
            (evaluate (depth + 1)
                  (.form .lambda [.list (Expr.symbols names), body]) env).on state.machine
              = .ok (.ok (.closure closure), after)
            ∧ earlier.Lacks closure)
      ∧ ∀ depth name names body env,
          env < state.store.frames.size
          → ∃ closure after,
              (evaluate (depth + 1)
                    (.form .definition [.list (.symbol name :: Expr.symbols names), body])
                    env).on state.machine
                = .ok (.ok .unspecified, after)
              ∧ after.store.local? env name = some (.closure closure)
              ∧ earlier.Lacks closure := by
  obtain ⟨log, _, loggedEarlier⟩ := logged_of_turns State.loggedIn_start begun
  obtain ⟨more, grows, logged⟩ := logged_of_turns loggedEarlier went
  -- The closure comes at the end of the log, and what existed stands before that.
  have lacks (names : List String) (body : Expr) (env : FrameId)
      : earlier.Lacks (state.store.makeClosure names body env).1 := by
    intro value known
    have later : log.length ≤ (state.store.makeClosure names body env).1.id :=
      Nat.le_trans grows.length_le (Nat.le_of_eq logged.store.count.symm)
    exact (loggedEarlier.hasValue known).same_eq_false later
  refine ⟨logged.equalitySound, fun depth names body env => ?_,
    fun depth name names body env present => ?_⟩
  · obtain ⟨after, finished⟩ := Eval.on_lambda depth names body env state.machine
    exact ⟨_, after, finished, lacks names body env⟩
  · obtain ⟨after, finished, bound⟩ :=
      Eval.on_shorthand depth names body env state.machine name present
    exact ⟨_, after, finished, bound, lacks names body env⟩

/-- A procedure is defined, and later the same definition is evaluated again, at a moment inside a
`let`. The procedure made then is not equal to the first one.
-/
theorem redefined_procedure_unequal
    : ∃ earlier state,
        Relation.ReflTransGen Turn .start earlier
        ∧ Relation.ReflTransGen Turn earlier state
        ∧ earlier.HasValue (.closure ⟨0, ["x"], .symbol "x", 0⟩)
        ∧ state.EqualitySound
        ∧ 0 < state.store.frames.size
        ∧ ∃ closure after,
            (evaluate 1
                  (.form .definition
                    [.list (.symbol "f" :: Expr.symbols ["x"]), .symbol "x"])
                  0).on state.machine
              = .ok (.ok .unspecified, after)
            ∧ after.store.local? 0 "f" = some (.closure closure)
            ∧ (Value.closure ⟨0, ["x"], .symbol "x", 0⟩).same (.closure closure) = false := by
  let again : Expr :=
    .form .definition [.list (.symbol "f" :: Expr.symbols ["x"]), .symbol "x"]
  have session
      : ∃ earlier,
          Relation.ReflTransGen Turn .start earlier
          ∧ earlier.store.local? 0 "f" = some (.closure ⟨0, ["x"], .symbol "x", 0⟩)
          ∧ ∃ state, Turn earlier state ∧ 0 < state.store.frames.size := by
    have define :=
      @Step.eval ⟨⟨(Store.addGlobal ∅).2, #[]⟩, [0], []⟩ 1 again 0 _ _ (by decide) rfl
    refine ⟨_, .head (.step (@Step.global .start)) (.single (.step define)), rfl, ?_⟩
    exact ⟨_, @Turn.eval _ (fun expr _ _ => expr = again) 2
      (.form .letIn [.list [.list [.symbol "y", .number .one]], again]) 0 _ _ (by decide) rfl,
      by decide⟩
  obtain ⟨earlier, begun, held, state, turn, present⟩ := session
  have known : earlier.HasValue (.closure ⟨0, ["x"], .symbol "x", 0⟩) := .held held
  obtain ⟨sound, _, definitions⟩ := equality_sound begun (.single turn)
  obtain ⟨closure, after, finished, bound, lacks⟩ :=
    definitions 0 "f" ["x"] (.symbol "x") 0 present
  exact ⟨earlier, state, begun, .single turn, known, sound, present, closure, after, finished,
    bound, (lacks _ known).1⟩

end Session

end MiniLisp
