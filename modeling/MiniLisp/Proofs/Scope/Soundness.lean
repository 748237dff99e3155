import Mathlib.Order.Defs.Unbundled
import MiniLisp.Proofs.Scope.Lookup

/-! Sound stores: frames lie in older frames, and the closures that they hold have been made over
frames that are there.
Every operation keeps a store sound that is given values made in it.
-/

namespace MiniLisp

/-- How many frames and closures have been made. -/
structure Extent where
  frames : Nat
  closures : Nat

/-- One extent is at most another: frames and closures are only ever added. -/
structure Extent.Within (extent larger : Extent) : Prop where
  frames : extent.frames ≤ larger.frames
  closures : extent.closures ≤ larger.closures

instance : IsPreorder Extent Extent.Within where
  refl _ := ⟨Nat.le_refl _, Nat.le_refl _⟩
  trans _ _ _ first second :=
    ⟨Nat.le_trans first.frames second.frames, Nat.le_trans first.closures second.closures⟩

/-- The closure has been made, over a frame that is there. -/
structure Closure.Made (extent : Extent) (closure : Closure) : Prop where
  env : closure.env < extent.frames
  id : closure.id < extent.closures

/-- A value that can be there: if it is a closure, that has been made. -/
def Value.Made (extent : Extent) (value : Value) : Prop :=
  ∀ closure, value = .closure closure → closure.Made extent

theorem Closure.Made.mono {extent larger : Extent} (within : extent.Within larger)
    {closure : Closure} (made : closure.Made extent)
    : closure.Made larger :=
  ⟨Nat.lt_of_lt_of_le made.env within.frames, Nat.lt_of_lt_of_le made.id within.closures⟩

theorem Value.Made.mono {extent larger : Extent} (within : extent.Within larger) {value : Value}
    (made : value.Made extent)
    : value.Made larger :=
  fun closure same => (made closure same).mono within

/-- What is bound is among what has been bound, by induction on the entries. -/
theorem Bindings.forall_get?_insertAll {Content : Type} {holds : Content → Prop}
    {entries : List (String × Content)} (each : ∀ entry ∈ entries, holds entry.2)
    {bindings : Bindings Content}
    (before : ∀ name content, bindings.get? name = some content → holds content)
    : ∀ name content, (bindings.insertAll entries).get? name = some content → holds content := by
  induction entries generalizing bindings with
  | nil => exact before
  | cons entry rest ih =>
      rw [List.forall_mem_cons] at each
      refine ih each.2 fun name content found => ?_
      rw [get?_insert] at found
      split at found
      · obtain rfl := Option.some.inj found
        exact each.1
      · exact before name content found

namespace Store

/-- The global names stand for booleans and primitives. -/
theorem ne_closure_of_globals
    : ∀ name value, globals.get? name = some value → ∀ closure, value ≠ .closure closure := by
  refine Bindings.forall_get?_insertAll (fun entry member => ?_) (by simp)
  rcases List.mem_append.mp member with literal | given
  · rcases List.mem_pair.mp literal with rfl | rfl <;> exact nofun
  · obtain ⟨primitive, _, rfl⟩ := List.mem_map.mp given
    exact nofun

section Held

variable {store : Store} {holds : Value → Prop}
  (held : ∀ id name value, store.local? id name = some value → holds value)

include held

/-- What holds of every value in a frame does so when one more is bound that it holds of. -/
theorem forall_local?_bind {value : Value} (given : holds value) (env : FrameId) (name : String)
    : ∀ id key other, (store.bind env name value).local? id key = some other → holds other := by
  intro id key other bound
  rw [local?_bind] at bound
  split at bound
  · exact Option.some.inj bound ▸ given
  · exact held id key other bound

/-- It does so when a frame is added whose values it holds of. -/
theorem forall_local?_addFrame {frame : Frame}
    (given : ∀ name value, frame.bindings.get? name = some value → holds value)
    : ∀ id name value, (store.addFrame frame).2.local? id name = some value → holds value := by
  intro id name value bound
  rw [local?, frame?_addFrame] at bound
  split at bound
  · exact given name value bound
  · exact held id name value bound

end Held

/-- What a store has made so far. -/
def extent (store : Store) : Extent :=
  ⟨store.frames.size, store.closures⟩

/-- Every frame is younger than its parent, and every closure held in a frame has been made over a
frame that is there.
-/
structure Sound (store : Store) : Prop where
  parents : ∀ {id outer}, store.parent? id = some outer → outer < id
  held : ∀ {id name value}, store.local? id name = some value → value.Made store.extent

/-- The frames without a parent are among the roots. -/
def Rooted (roots : FrameId → Prop) (store : Store) : Prop :=
  ∀ id < store.frames.size, store.parent? id = none → roots id

/-- Going from a frame to its parent, and so on, ends at a frame without a parent. -/
inductive LeadsTo (store : Store) : FrameId → FrameId → Prop
  | here {root} (present : root < store.frames.size) (outermost : store.parent? root = none)
    : LeadsTo store root root
  | further {id outer root} (parent : store.parent? id = some outer)
    (leads : LeadsTo store outer root)
    : LeadsTo store id root

section Sound

variable {store : Store} {roots : FrameId → Prop}

theorem sound_empty : (∅ : Store).Sound :=
  ⟨nofun, nofun⟩

theorem lt_size_of_parent? {id outer : FrameId} (found : store.parent? id = some outer)
    : id < store.frames.size := by
  obtain ⟨frame, present, _⟩ := Option.bind_eq_some_iff.mp found
  exact (store.isSome_frame? id).mp (Option.isSome_of_eq_some present)

/-- In a sound store the search for a name goes on in the parent. -/
theorem Sound.outer?_eq (sound : store.Sound) (id : FrameId)
    : store.outer? id = store.parent? id := by
  unfold outer?
  cases found : store.parent? id with
  | none => rfl
  | some outer => simp [sound.parents found]

/-- Every frame leads to a root, by induction on its place. -/
theorem Sound.leadsTo (sound : store.Sound) (rooted : store.Rooted roots) {id : FrameId}
    (present : id < store.frames.size)
    : ∃ root, roots root ∧ store.LeadsTo id root := by
  induction id using Nat.strongRecOn with
  | ind id ih =>
      cases found : store.parent? id with
      | none => exact ⟨id, rooted id present found, .here present found⟩
      | some outer =>
          have older : outer < id := sound.parents found
          obtain ⟨root, isRoot, leads⟩ := ih outer older (Nat.lt_trans older present)
          exact ⟨root, isRoot, .further found leads⟩

theorem rooted_of_leadsTo
    (leads : ∀ id < store.frames.size, ∃ root, roots root ∧ store.LeadsTo id root)
    : store.Rooted roots := by
  intro id present outermost
  obtain ⟨root, isRoot, way⟩ := leads id present
  cases way with
  | here _ _ => exact isRoot
  | further parent _ => cases outermost.symm.trans parent

/-- What a name means has been made. -/
theorem Sound.lookup? (sound : store.Sound) {env : FrameId} {name : String} {value : Value}
    (found : store.lookup? env name = some value)
    : value.Made store.extent := by
  obtain ⟨id, _, bound⟩ := List.exists_of_findSome?_eq_some found
  exact sound.held bound

-----------------------------------------------------------------------------------------
-- What the store's operations keep
-----------------------------------------------------------------------------------------

@[simp]
theorem extent_bind (store : Store) (env : FrameId) (name : String) (value : Value)
    : (store.bind env name value).extent = store.extent := by
  rw [extent, size_bind]
  rfl

theorem within_addFrame (store : Store) (frame : Frame)
    : store.extent.Within (store.addFrame frame).2.extent :=
  ⟨by simp [extent], Nat.le_refl _⟩

theorem Sound.bind (sound : store.Sound) {value : Value} (made : value.Made store.extent)
    (env : FrameId) (name : String)
    : (store.bind env name value).Sound := by
  constructor
  · intro id outer found
    rw [parent?_bind] at found
    exact sound.parents found
  · rw [extent_bind]
    exact fun found => forall_local?_bind (fun _ _ _ => sound.held) made env name _ _ _ found

theorem Rooted.bind (rooted : store.Rooted roots) (env : FrameId) (name : String)
    (value : Value)
    : (store.bind env name value).Rooted roots := by
  intro id present outermost
  rw [size_bind] at present
  rw [parent?_bind] at outermost
  exact rooted id present outermost

/-- A frame in the store that has been added is the new one or was there before. -/
theorem eq_or_lt_of_addFrame {frame : Frame} {id : FrameId}
    (present : id < (store.addFrame frame).2.frames.size)
    : id = store.frames.size ∨ id < store.frames.size := by
  rw [size_addFrame] at present
  exact (Nat.lt_succ_iff_lt_or_eq.mp present).symm

theorem parent?_addFrame_of_lt {id : FrameId} (old : id < store.frames.size) (frame : Frame)
    : (store.addFrame frame).2.parent? id = store.parent? id := by
  rw [parent?, parent?, frame?_addFrame_of_lt old]

theorem parent?_addFrame_new (store : Store) (frame : Frame)
    : (store.addFrame frame).2.parent? store.frames.size = frame.parent := by
  rw [parent?, frame?_addFrame, if_pos rfl]
  rfl

theorem Sound.addFrame (sound : store.Sound) {frame : Frame}
    (inside : ∀ outer, frame.parent = some outer → outer < store.frames.size)
    (held
      : ∀ name value, frame.bindings.get? name = some value → value.Made store.extent)
    : (store.addFrame frame).2.Sound := by
  have grows := store.within_addFrame frame
  constructor
  · intro id outer found
    rcases eq_or_lt_of_addFrame (lt_size_of_parent? found) with rfl | old
    · rw [parent?_addFrame_new] at found
      exact inside outer found
    · rw [parent?_addFrame_of_lt old] at found
      exact sound.parents found
  · intro id name value found
    exact (forall_local?_addFrame (fun _ _ _ => sound.held) held id name value found).mono grows

theorem Sound.spawn (sound : store.Sound) {env : FrameId} (present : env < store.frames.size)
    : (store.spawn env).2.Sound :=
  sound.addFrame (fun _ parent => Option.some.inj parent ▸ present) (by simp)

theorem Sound.addGlobal (sound : store.Sound) : store.addGlobal.2.Sound :=
  sound.addFrame nofun fun name value bound closure same =>
    absurd same (ne_closure_of_globals name value bound closure)

theorem Rooted.addFrame (rooted : store.Rooted roots) {frame : Frame}
    (root : frame.parent = none → roots store.frames.size)
    : (store.addFrame frame).2.Rooted roots := by
  intro id present outermost
  rcases eq_or_lt_of_addFrame present with rfl | old
  · rw [parent?_addFrame_new] at outermost
    exact root outermost
  · rw [parent?_addFrame_of_lt old] at outermost
    exact rooted id old outermost

/-- Counting one more closure keeps a store sound. -/
theorem Sound.makeClosure (sound : store.Sound)
    : ({ store with closures := store.closures + 1 } : Store).Sound := by
  have grows : store.extent.Within { store with closures := store.closures + 1 : Store }.extent :=
    ⟨Nat.le_refl _, Nat.le_succ _⟩
  exact ⟨sound.parents, fun found => (sound.held found).mono grows⟩

end Sound

end Store

end MiniLisp
