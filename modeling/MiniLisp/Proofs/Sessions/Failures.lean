import MiniLisp.Proofs.Invariants.Texts
import MiniLisp.Proofs.Sessions.Invariant

/-! What the errors of a session say is true of it.
Nothing is evaluated after a failure, so the store that it leaves is the one that the error is
about.
-/

namespace MiniLisp

namespace Soundness

open Store

variable {store : Store} {roots : FrameId → Prop}

/-- Soundness of stores whose frames without a parent are among the roots, with closures that have
been made over frames that are there.
-/
def invariant (roots : FrameId → Prop) : Invariant where
  Grows store later := store.extent.Within later.extent
  stores store := store.Sound ∧ store.Rooted roots
  frames store env := env < store.frames.size
  closures store := Closure.Made store.extent
  code _ := True
  preorder := {
    refl := fun store => refl_of Extent.Within store.extent
    trans := fun _ _ _ => trans_of Extent.Within }
  frames_mono grows present := Nat.lt_of_lt_of_le present grows.frames
  closures_mono grows made := made.mono grows
  code_item _ _ := trivial
  code_of_closure made := ⟨made.env, trivial⟩
  held stores := stores.1.held
  bind := by
    rintro store env name value ⟨sound, rooted⟩ _ made
    refine ⟨?_, sound.bind made env name, rooted.bind env name value⟩
    rw [extent_bind]
    exact refl_of Extent.Within _
  make := by
    rintro store env parameters body ⟨sound, rooted⟩ present _ _
    exact ⟨⟨Nat.le_refl _, Nat.le_succ _⟩, ⟨sound.makeClosure, rooted⟩, present, Nat.lt_succ_self _⟩
  spawn := by
    rintro store env ⟨sound, rooted⟩ present
    refine ⟨within_addFrame _ _, ⟨sound.spawn present, rooted.addFrame nofun⟩, ?_⟩
    exact Nat.lt_of_lt_of_eq (Nat.lt_succ_self _) (size_addFrame _ _).symm

/-- A name that means nothing in a frame is not bound at the end of its chain, by induction on the
way there.
-/
theorem local?_of_leadsTo (sound : store.Sound) {env root : FrameId}
    (leads : store.LeadsTo env root) {name : String} (unresolved : store.lookup? env name = none)
    : store.local? root name = none := by
  induction leads with
  | here _ _ =>
      rw [lookup?_eq, Option.or_eq_none_iff] at unresolved
      exact unresolved.1
  | further parent _ ih =>
      rw [lookup?_eq, Option.or_eq_none_iff, sound.outer?_eq, parent] at unresolved
      exact ih unresolved.2

end Soundness

namespace Session

open Soundness

/-- Something that the session evaluates next ends in this error and leaves this machine: a text of
which a form fails, an expression, one of several that are evaluated in order, or a call of a
value.
-/
inductive State.Fails (state : State) (error : EvalError) (after : Machine) : Prop
  | text {depth text env outcomes} (present : env < state.store.frames.size)
    (finished : (runText depth text env).run state.machine = .ok (outcomes, after))
    (failed : .error (.eval error) ∈ outcomes)
  | eval {depth expr env} (present : env < state.store.frames.size)
    (finished : (evaluate depth expr env).on state.machine = .ok (.error error, after))
  | each {depth exprs env} (present : env < state.store.frames.size)
    (finished
      : (Eval.each (evaluate depth) env exprs).on state.machine = .ok (.error error, after))
  | apply {depth callee args} (known : ∀ value ∈ callee :: args, state.HasValue value)
    (finished
      : (Eval.apply (evaluate depth) callee args).on state.machine = .ok (.error error, after))

/-- What an evaluation leaves that fails: a sound store, which the error is right about. -/
structure LeavesError (roots : FrameId → Prop) (error : EvalError) (store : Store) : Prop where
  sound : store.Sound
  rooted : store.Rooted roots
  raises : (invariant roots).Raises store error

section Failing

variable {roots : FrameId → Prop} {error : EvalError} {machine after : Machine}
  (stores : (invariant roots).stores machine.store)

include stores

theorem leavesError_of_obeys {Result : Type} {results : Store → Result → Prop}
    {evaluation : Eval Result} (obeys : (invariant roots).Obeys machine.store results evaluation)
    (finished : evaluation.on machine = .ok (.error error, after))
    : LeavesError roots error after.store := by
  have ends := obeys machine (refl_of (invariant roots).Grows _) stores
  rw [finished] at ends
  cases ends with
  | failure _ stores raises => exact ⟨stores.1, stores.2, raises⟩

theorem leavesError_of_runText {depth : Nat} {text : String} {env : FrameId}
    {outcomes : List Outcome} (present : env < machine.store.frames.size)
    (finished : (runText depth text env).run machine = .ok (outcomes, after))
    (failed : .error (.eval error) ∈ outcomes)
    : LeavesError roots error after.store := by
  have ends : (invariant roots).FormsEnd machine.store ((runText depth text env).run machine) :=
    Invariant.formsEnd_runText stores present fun _ _ _ _ => trivial
  rw [finished] at ends
  cases ends with
  | outcomes _ stores allowed => exact ⟨stores.1, stores.2, allowed _ failed⟩

end Failing

/-- Whatever fails leaves an error that is right, by cases on what it is. -/
theorem State.Fails.leavesError {state : State} (sound : state.Sound) {error : EvalError}
    {after : Machine} (fails : state.Fails error after)
    : LeavesError (· ∈ state.globals) error after.store := by
  have stores : (invariant (· ∈ state.globals)).stores state.store := ⟨sound.store, sound.rooted⟩
  have obeys (depth : Nat) : (invariant (· ∈ state.globals)).ObeysEvaluator (evaluate depth) :=
    Invariant.obeys_evaluate _ depth
  cases fails with
  | text present finished failed => exact leavesError_of_runText stores present finished failed
  | @eval depth _ _ present finished =>
      exact leavesError_of_obeys stores (obeys depth present trivial) finished
  | @each depth _ _ present finished =>
      exact leavesError_of_obeys stores
        (Invariant.obeys_each present (obeys depth) fun _ _ => trivial) finished
  | @apply depth _ _ known finished =>
      have made := fun value member => sound.made (known value member)
      rw [List.forall_mem_cons] at made
      exact leavesError_of_obeys stores (Invariant.obeys_apply (obeys depth) made.1 made.2) finished

/-- An error of a session with one global frame is right about what it names: an operand count is
not accepted, a value is no procedure or no integer, an expression is malformed as the error says.
A name that is undefined means nothing in some frame that is there, and the global frame does not
bind it.
-/
theorem failures_justified {state : State} {root : FrameId} {error : EvalError} {after : Machine}
    (begun : Relation.ReflTransGen Step .start state) (single : state.globals = [root])
    (fails : state.Fails error after)
    : error.Justified (· < after.store.frames.size) after.store
      ∧ ∀ name, error = .undefinedName name → after.store.local? root name = none := by
  obtain ⟨sound, _⟩ := sound_of_steps begun State.sound_start
  have leaves := fails.leavesError sound
  have justified := leaves.raises.justified
  refine ⟨justified, ?_⟩
  rintro name rfl
  obtain ⟨env, present, unresolved⟩ := justified
  obtain ⟨top, among, leads⟩ := leaves.sound.leadsTo leaves.rooted present
  rw [single, List.mem_singleton] at among
  exact local?_of_leadsTo leaves.sound (among ▸ leads) unresolved

/-- A name that is defined nowhere means nothing in a frame inside the global one. -/
theorem undefined_name_justified
    : ∃ state after,
        Relation.ReflTransGen Step .start state
        ∧ state.globals = [0]
        ∧ state.Fails (.undefinedName "x") after
        ∧ (∃ env, env < after.store.frames.size ∧ after.store.lookup? env "x" = none)
        ∧ after.store.local? 0 "x" = none := by
  let store := ((Store.addGlobal ∅).2.spawn 0).2
  let state : State := ⟨⟨store, #[]⟩, [0], []⟩
  have begun : Relation.ReflTransGen Step .start state :=
    .head .global (.single (@Step.spawn _ 0 (by decide)))
  have unresolved : store.lookup? 1 "x" = none := by
    have outer : store.outer? 1 = some 0 := rfl
    rw [Store.lookup?_eq, outer, Option.bind_some, Store.lookup?_eq]
    rfl
  have fails : state.Fails (.undefinedName "x") ⟨store, #[.eval (.symbol "x")]⟩ := by
    refine @State.Fails.eval _ _ _ 1 (.symbol "x") 1 (by decide) ?_
    simp [evaluate, Eval.step, Eval.on_bind, Eval.on_fetch, state, unresolved]
  obtain ⟨unknown, unbound⟩ := failures_justified begun rfl fails
  exact ⟨state, _, begun, rfl, fails, unknown, unbound "x" rfl⟩

end Session

end MiniLisp
