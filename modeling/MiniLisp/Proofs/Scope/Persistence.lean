import MiniLisp.Proofs.Scope.FrameEffects
import MiniLisp.Proofs.Scope.Soundness
import MiniLisp.Proofs.Simulation.Session

/-! What runs never take away: frames, the links between them, and bound names.
A name may be bound anew, so what it means may change, but it never comes to mean nothing.
-/

namespace MiniLisp

namespace Store

/-- Every frame of the first store is still there, in the same parent, and binds the names that it
has bound.
-/
structure Kept (before after : Store) : Prop where
  frames : before.frames.size ≤ after.frames.size
  parents : ∀ id < before.frames.size, after.parent? id = before.parent? id
  bound : ∀ id name, (before.local? id name).isSome → (after.local? id name).isSome

instance : IsPreorder Store Kept where
  refl _ := ⟨Nat.le_refl _, fun _ _ => rfl, fun _ _ => id⟩
  trans _ _ _ first second := by
    refine ⟨Nat.le_trans first.frames second.frames, fun id old => ?_, fun id name bound => ?_⟩
    · have still := Nat.lt_of_lt_of_le old first.frames
      exact (second.parents id still).trans (first.parents id old)
    · exact second.bound id name (first.bound id name bound)

theorem Kept.of_changes {env : FrameId} {names : String → Prop} {before after : Store}
    (changes : Changes env names before after)
    : Kept before after := by
  refine ⟨changes.grows, fun id old => ?_, fun id name bound => ?_⟩
  · by_cases own : id = env
    · subst own
      exact changes.parent old
    · rw [parent?, parent?, changes.others id old own]
  · by_cases own : id = env
    · subst own
      exact changes.kept name bound
    · rwa [local?, changes.others id (lt_size_of_local? bound) own]

theorem Kept.of_preserves {before after : Store} (preserves : Preserves before after)
    : Kept before after :=
  .of_changes (preserves.changes 0 fun _ => False)

theorem Kept.spawn (store : Store) (env : FrameId) : Kept store (store.spawn env).2 :=
  .of_preserves (preserves_addFrame store _)

theorem Kept.bind (store : Store) (env : FrameId) (name : String) (value : Value)
    : Kept store (store.bind env name value) :=
  .of_changes (@changes_bind env (fun _ => True) name trivial store value)

/-- Runs change no chain of a frame that is there, by induction on the frame's place. -/
theorem Kept.chain {before after : Store} (kept : Kept before after) {env : FrameId}
    (present : env < before.frames.size)
    : after.chain env = before.chain env := by
  induction env using Nat.strongRecOn with
  | ind env ih =>
      have still : env < after.frames.size := Nat.lt_of_lt_of_le present kept.frames
      rw [chain_eq, chain_eq, if_pos ((isSome_frame? ..).mpr still),
        if_pos ((isSome_frame? ..).mpr present), kept.parents env present]
      cases found : (before.parent? env).filter (· < env) with
      | none => rfl
      | some outer =>
          have older : outer < env := by simpa using (Option.filter_eq_some_iff.mp found).2
          simp only [Option.elim_some, ih outer older (Nat.lt_trans older present)]

/-- A name that means something goes on to mean something, by induction on the frame's place. -/
theorem Kept.lookup? {before after : Store} (kept : Kept before after) {env : FrameId}
    {name : String} (found : (before.lookup? env name).isSome)
    : (after.lookup? env name).isSome := by
  induction env using Nat.strongRecOn with
  | ind env ih =>
      rw [lookup?_eq, Option.isSome_or, Bool.or_eq_true] at found ⊢
      rcases found with here | outside
      · exact .inl (kept.bound env name here)
      · obtain ⟨value, further⟩ := Option.isSome_iff_exists.mp outside
        obtain ⟨outer, link, meant⟩ := Option.bind_eq_some_iff.mp further
        have parent : before.parent? env = some outer := (Option.filter_eq_some_iff.mp link).1
        have same : after.outer? env = some outer := by
          rw [outer?, kept.parents env (lt_size_of_parent? parent)]
          exact link
        rw [same, Option.bind_some]
        exact .inr (ih outer (outer?_lt link) (Option.isSome_of_eq_some meant))

end Store

-----------------------------------------------------------------------------------------
-- Runs
-----------------------------------------------------------------------------------------

open Eval Store

theorem moves_kept_evaluate (depth : Nat) (expr : Expr) (env : FrameId)
    : Moves Kept (evaluate depth expr env) :=
  (keepsFrames_evaluate depth expr env).mono fun _ _ => Kept.of_changes

theorem moves_kept_apply (depth : Nat) (callee : Value) (args : List Value)
    : Moves Kept (Eval.apply (evaluate depth) callee args) :=
  ((keepsFrames_evaluate depth).apply callee args).mono fun _ _ => Kept.of_preserves

namespace Session

section Texts

variable {Step : Store → Store → Prop} [IsPreorder Store Step] {depth : Nat} {env : FrameId}
  {machine : Machine} {ended : List Outcome × Machine}

/-- Forms in order take the steps that each of them takes, also if one fails, by induction on
them.
-/
theorem moves_runForms {forms : List Expr} {text : String}
    (each : ∀ form ∈ forms, Moves Step (evaluate depth form env))
    (finished : (runForms depth text env forms).run machine = .ok ended)
    : Step machine.store ended.2.store := by
  induction forms generalizing machine ended with
  | nil =>
      obtain rfl := Except.ok.inj finished
      exact refl_of Step machine.store
  | cons form rest ih =>
      rw [List.forall_mem_cons] at each
      rcases runForms_cons_eq_ok.mp finished with
        ⟨error, middle, done, rfl⟩ | ⟨value, middle, outcomes, after, done, last, rfl⟩
      · exact each.1 machine (.error error) middle done
      · have step : Step machine.store middle.store := each.1 machine (.ok value) middle done
        exact trans_of Step step (ih each.2 last)

/-- So does a text, which does nothing if it cannot be read. -/
theorem moves_runText {text : String} (each : ∀ form, Moves Step (evaluate depth form env))
    (finished : (runText depth text env).run machine = .ok ended)
    : Step machine.store ended.2.store := by
  rw [runText_run] at finished
  split at finished
  · next forms _ =>
    let noted : Machine := { machine with trace := machine.trace.push (.read forms.length text) }
    have step : Step noted.store ended.2.store :=
      moves_runForms (fun form _ => each form) finished
    exact step
  · obtain rfl := Except.ok.inj finished
    exact refl_of Step machine.store

end Texts

/-- A text changes no frame but the one that it runs in. -/
theorem changes_runText {depth : Nat} {text : String} {env : FrameId} {machine : Machine}
    {ended : List Outcome × Machine} (finished : (runText depth text env).run machine = .ok ended)
    : Changes env (fun _ => True) machine.store ended.2.store :=
  moves_runText (fun _ => (keepsFrames_evaluate depth).inside fun _ _ => trivial) finished

theorem kept_runText {depth : Nat} {text : String} {env : FrameId} {machine : Machine}
    {ended : List Outcome × Machine} (finished : (runText depth text env).run machine = .ok ended)
    : Kept machine.store ended.2.store :=
  .of_changes (changes_runText finished)

end Session

end MiniLisp
