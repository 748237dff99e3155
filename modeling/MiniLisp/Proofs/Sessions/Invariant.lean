import Mathlib.Logic.Relation
import MiniLisp.Proofs.Scope.Persistence
import MiniLisp.Proofs.Sessions.Steps

/-! What holds at every moment of a session, and what is never lost in it.
Each step keeps the invariant and takes nothing away, so every session does, whatever its steps are
and whether they fail.
-/

namespace MiniLisp.Session

open Store

/-- What holds at every moment: parents are older than the frames in them, so every chain ends, and
does so in a global frame; global frames bind the global names; and every closure that is held in a
frame or has been given is one over a frame that is there.
-/
structure State.Sound (state : State) : Prop where
  store : state.store.Sound
  leads
    : ∀ id < state.store.frames.size,
        ∃ root, root ∈ state.globals ∧ state.store.LeadsTo id root
  globals
    : ∀ root ∈ state.globals, ∀ name ∈ globalNames, (state.store.local? root name).isSome
  given : ∀ value ∈ state.given, value.Made state.store.extent

theorem State.sound_start : State.start.Sound :=
  ⟨sound_empty, fun id present => absurd present (Nat.not_lt_zero id),
    fun _ member => (nomatch member), fun _ member => nomatch member⟩

section Steps

variable {state : State} (sound : state.Sound)

include sound

theorem State.Sound.rooted : state.store.Rooted (· ∈ state.globals) :=
  rooted_of_leadsTo sound.leads

/-- Values that exist have been made. -/
theorem State.Sound.made {value : Value} (known : state.HasValue value)
    : value.Made state.store.extent := by
  cases known with
  | plain noClosure => exact fun closure same => absurd same (noClosure closure)
  | held bound => exact sound.store.held bound
  | given member => exact sound.given value member

/-- A step that keeps the store sound and takes nothing away keeps the session sound. -/
theorem State.Sound.next {machine : Machine} {values : List Value}
    (stays : state.store.StaysSound (· ∈ state.globals) machine.store values)
    (kept : state.store.Kept machine.store)
    : (state.next machine values).Sound where
  store := stays.sound
  leads _ present := stays.sound.leadsTo stays.rooted present
  globals root member name named := kept.bound root name (sound.globals root member name named)
  given := by
    refine List.forall_mem_append.mpr ⟨stays.made, fun value member => ?_⟩
    exact (sound.given value member).mono stays.grows

end Steps

theorem isSome_get?_globals {name : String} (named : name ∈ globalNames)
    : (Store.globals.get? name).isSome := by
  refine Bindings.isSome_get?_insertAll (.inl ?_)
  revert name
  decide

/-- A fresh global frame binds the global names, and the others still do. -/
theorem State.Sound.global {state : State} (sound : state.Sound)
    (kept : state.store.Kept state.store.addGlobal.2)
    : State.Sound
        { state.nextStore state.store.addGlobal.2 [] with
          globals := state.store.addGlobal.1 :: state.globals } := by
  have rooted : state.store.addGlobal.2.Rooted (· ∈ state.store.addGlobal.1 :: state.globals) :=
    Rooted.addFrame (fun id present outermost =>
      List.mem_cons_of_mem _ (sound.rooted id present outermost)) fun _ => List.mem_cons_self
  refine ⟨sound.store.addGlobal, fun _ present => sound.store.addGlobal.leadsTo rooted present,
    fun root member name named => ?_,
    fun value member => (sound.given value member).mono (within_addFrame _ _)⟩
  rcases List.mem_cons.mp member with rfl | old
  · have bound := local?_addFrame_new state.store ⟨Store.globals, none⟩ name
    exact bound ▸ isSome_get?_globals named
  · exact kept.bound root name (sound.globals root old name named)

/-- A step keeps a session sound and takes nothing away, by cases on the step. -/
theorem Step.sound {state later : State} (step : Step state later) (sound : state.Sound)
    : later.Sound ∧ state.store.Kept later.store := by
  cases step with
  | global =>
      have kept : state.store.Kept state.store.addGlobal.2 := .of_preserves (preserves_addFrame _ _)
      exact ⟨sound.global kept, kept⟩
  | @text depth text env outcomes after present finished =>
      have kept : state.store.Kept after.store := kept_runText finished
      have stays := staysSound_runText sound.store sound.rooted present finished
      exact ⟨sound.next stays kept, kept⟩
  | @eval depth expr env outcome after present finished =>
      have kept := moves_kept_evaluate depth expr env state.machine outcome after finished
      have stays := Eval.staysSound_evaluate sound.store sound.rooted present finished
      exact ⟨sound.next stays kept, kept⟩
  | @apply depth callee args outcome after known finished =>
      have kept := moves_kept_apply depth callee args state.machine outcome after finished
      have stays := Eval.staysSound_apply sound.store sound.rooted
        (fun value member => sound.made (known value member)) finished
      exact ⟨sound.next stays kept, kept⟩
  | @spawn parent present =>
      have kept : state.store.Kept (state.store.spawn parent).2 :=
        .of_preserves (preserves_addFrame _ _)
      have stays := staysSound_spawn sound.store sound.rooted present
      exact ⟨sound.next stays kept, kept⟩
  | @set env name value present known =>
      have changes : Changes env (fun _ => True) state.store (state.store.set env name value).2 :=
        changes_bind trivial state.store value
      have kept := Kept.of_changes changes
      have stays
          : state.store.StaysSound (· ∈ state.globals) (state.store.set env name value).2
              (state.store.set env name value).1.toList :=
        staysSound_set sound.store sound.rooted (sound.made known)
      exact ⟨sound.next stays kept, kept⟩

/-- Any number of steps keep a session sound and take nothing away, by induction on them. -/
theorem sound_of_steps {earlier later : State} (steps : Relation.ReflTransGen Step earlier later)
    (sound : earlier.Sound)
    : later.Sound ∧ earlier.store.Kept later.store := by
  induction steps with
  | refl => exact ⟨sound, refl_of Kept earlier.store⟩
  | tail _ step ih =>
      obtain ⟨soundBefore, keptBefore⟩ := ih
      obtain ⟨soundAfter, kept⟩ := step.sound soundBefore
      exact ⟨soundAfter, trans_of Kept keptBefore kept⟩

/-- At every moment of every session, frames are younger than their parents and lead to global
frames, which bind the global names, and closures are over frames that are there. What was there at
an earlier moment has been kept: the frames, their parents, the names bound in them, and so every
name that had a meaning in a frame has one.
-/
theorem moments_sound_and_kept {earlier later : State}
    (begun : Relation.ReflTransGen Step .start earlier)
    (went : Relation.ReflTransGen Step earlier later)
    : later.Sound
      ∧ earlier.store.Kept later.store
      ∧ ∀ env name,
          (earlier.store.lookup? env name).isSome → (later.store.lookup? env name).isSome := by
  obtain ⟨soundEarlier, _⟩ := sound_of_steps begun State.sound_start
  obtain ⟨soundLater, kept⟩ := sound_of_steps went soundEarlier
  exact ⟨soundLater, kept, fun _ _ found => kept.lookup? found⟩

/-- A procedure is defined; later it is bound in a new frame as well, its first name is bound anew,
and a call of it fails inside.
-/
theorem moments_around_failure
    : ∃ earlier later,
        Relation.ReflTransGen Step .start earlier
        ∧ Relation.ReflTransGen Step earlier later
        ∧ earlier.store.local? 0 "f" = some (.closure ⟨0, ["x"], .list [], 0⟩)
        ∧ later.store.local? 0 "f" = some (.integer .one)
        ∧ later.store.local? 1 "g" = some (.closure ⟨0, ["x"], .list [], 0⟩)
        ∧ later.Sound
        ∧ earlier.store.Kept later.store
        ∧ ∀ env name,
            (earlier.store.lookup? env name).isSome → (later.store.lookup? env name).isSome := by
  have session
      : ∃ earlier,
          Relation.ReflTransGen Step .start earlier
          ∧ earlier.store.local? 0 "f" = some (.closure ⟨0, ["x"], .list [], 0⟩)
          ∧ ∃ later,
              Relation.ReflTransGen Step earlier later
              ∧ later.store.local? 0 "f" = some (.integer .one)
              ∧ later.store.local? 1 "g" = some (.closure ⟨0, ["x"], .list [], 0⟩) := by
    have define := @Step.eval ⟨⟨(Store.addGlobal ∅).2, #[]⟩, [0], []⟩ 1
      (.form .definition [.list [.symbol "f", .symbol "x"], .list []]) 0 _ _ (by decide) rfl
    refine ⟨_, .head .global (.single define), rfl, ?_⟩
    refine ⟨_, .head (@Step.spawn _ 0 (by decide))
      (.head (@Step.set _ 1 "g" _ (by decide) (@State.HasValue.held _ 0 "f" _ rfl))
        (.head (@Step.set _ 0 "f" (.integer .one) (by decide) (.plain nofun))
          (.single (@Step.apply _ 1 (.closure ⟨0, ["x"], .list [], 0⟩) [.unspecified] _ _ ?known
            rfl)))), rfl, rfl⟩
    exact List.forall_mem_cons.mpr
      ⟨@State.HasValue.held _ 1 "g" _ rfl, List.forall_mem_singleton.mpr (.plain nofun)⟩
  obtain ⟨earlier, begun, meant, later, went, rebound, shared⟩ := session
  exact ⟨earlier, later, begun, went, meant, rebound, shared, moments_sound_and_kept begun went⟩

end MiniLisp.Session
