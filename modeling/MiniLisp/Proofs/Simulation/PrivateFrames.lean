import Mathlib.Logic.Function.Basic
import MiniLisp.Proofs.Simulation.Matching

/-! Stores that match, where the first run has frames to itself.
It makes and fills such a frame before the second run has made its counterpart. Until that happens
nothing in the second store belongs to the frame, so nothing else in the first run can come to it and
its contents stay known; then the second run makes a frame with the same contents, and from there on
the two belong together.
-/

namespace MiniLisp

/-- A matching, and the frames that the first run has to itself with all that is in them. -/
structure PrivateMatching extends Matching where
  own : FrameId → Option Frame

namespace PrivateMatching

/-- The other matching holds everything that this one does, and the first run has its frames to itself
as before.
-/
structure Extends (w w' : PrivateMatching) : Prop where
  matching : w.toMatching.Extends w'.toMatching
  own : ∀ {id frame}, w.own id = some frame → w'.own id = some frame

/-- Stores that match, where the first holds what it is known to have to itself and nothing in the
second belongs to that.
-/
structure Stores (w : PrivateMatching) (code : Expr → Expr → Prop) (store other : Store) : Prop
    extends w.toMatching.Stores code store other where
  kept : ∀ {id frame}, w.own id = some frame → store.frame? id = some frame
  unmatched : ∀ {id frame right}, w.own id = some frame → ¬ w.frames id right

instance : IsPreorder PrivateMatching Extends where
  refl w := ⟨refl_of Matching.Extends w.toMatching, fun found => found⟩
  trans _ _ _ first second :=
    ⟨trans_of Matching.Extends first.matching second.matching,
      fun found => second.own (first.own found)⟩

/-- More belongs together, and the first run has to itself what it had. -/
def withMatching (w : PrivateMatching) (m : Matching) : PrivateMatching :=
  { w with toMatching := m }

/-- The matching with other contents for one frame that the first run has to itself, or with none if
it no longer has it to itself.
-/
def withOwn (w : PrivateMatching) (id : FrameId) (content : Option Frame) : PrivateMatching :=
  { w with own := Function.update w.own id content }

/-- The matching with a frame of the first run that it no longer has to itself. -/
def sharing (w : PrivateMatching) (id right : FrameId) : PrivateMatching :=
  (w.withOwn id none).withMatching (w.withFrames id right)

variable {base w : PrivateMatching} {code : Expr → Expr → Prop} {store other : Store}
  {id : FrameId} {frame : Frame}

/-- What the first run has to itself is the frame in question or another one. -/
theorem own_update_cases {own : FrameId → Option Frame} {content : Option Frame}
    {place : FrameId} (found : Function.update own id content place = some frame)
    : place = id ∧ content = some frame ∨ place ≠ id ∧ own place = some frame := by
  rw [Function.update_apply] at found
  split at found
  · next same => exact .inl ⟨same, found⟩
  · next differs => exact .inr ⟨differs, found⟩

/-- A base does not notice what becomes of a frame that was not yet there. -/
theorem Extends.withOwn (grows : base.Extends w) (unowned : base.own id = none)
    (content : Option Frame)
    : base.Extends (w.withOwn id content) where
  matching := grows.matching
  own := by
    intro place kept found
    have differs : place ≠ id := by
      rintro rfl
      cases unowned.symm.trans found
    exact (Function.update_of_ne differs ..).trans (grows.own found)

theorem Extends.sharing (grows : base.Extends w) (unowned : base.own id = none)
    (right : FrameId)
    : base.Extends (w.sharing id right) where
  matching := trans_of Matching.Extends grows.matching (w.extends_withFrames id right)
  own := (grows.withOwn unowned none).own

-----------------------------------------------------------------------------------------
-- What both runs do
-----------------------------------------------------------------------------------------

section Keeping

variable (stores : w.Stores code store other)

include stores

/-- A frame that the first run has to itself is not one that it binds names in together with the
second.
-/
theorem Stores.bind {env env' : FrameId} (frames : w.frames env env') (name : String)
    {value value' : Value} (together : Value.Alike (w.Closures code) value value')
    : w.Stores code (store.bind env name value) (other.bind env' name value') where
  toStores := stores.toStores.bind frames name together
  kept := by
    intro id frame found
    have differs : env ≠ id := by
      rintro rfl
      exact stores.unmatched found frames
    rw [Store.frame?_bind, if_neg differs]
    exact stores.kept found
  unmatched := stores.unmatched

theorem Stores.makeClosure
    : (w.withMatching (w.withClosures store.closures other.closures)).Stores code
        { store with closures := store.closures + 1 }
        { other with closures := other.closures + 1 } where
  toStores := stores.toStores.makeClosure
  kept := stores.kept
  unmatched := stores.unmatched

theorem Stores.lt_size (found : w.own id = some frame) : id < store.frames.size :=
  (store.isSome_frame? id).mp (Option.isSome_of_eq_some (stores.kept found))

theorem Stores.spawn {env env' : FrameId} (frames : w.frames env env')
    : (w.withMatching (w.withFrames store.frames.size other.frames.size)).Stores code
        (store.spawn env).2 (other.spawn env').2 where
  toStores := stores.toStores.spawn frames
  kept := by
    intro id frame found
    rw [Store.spawn, Store.frame?_addFrame_of_lt (stores.lt_size found)]
    exact stores.kept found
  unmatched := by
    rintro id frame right found (pair | ⟨rfl, _⟩)
    · exact stores.unmatched found pair
    · exact Nat.lt_irrefl _ (stores.lt_size found)

-----------------------------------------------------------------------------------------
-- What one run does by itself
-----------------------------------------------------------------------------------------

/-- The first run makes a frame that it has to itself. -/
theorem Stores.spawnFirst (env : FrameId)
    : w.own store.frames.size = none
      ∧ (w.withOwn store.frames.size (some ⟨∅, some env⟩)).Stores code (store.spawn env).2
          other := by
  constructor
  · cases found : w.own store.frames.size with
    | none => rfl
    | some frame => exact absurd (stores.lt_size found) (Nat.lt_irrefl _)
  · have kept : w.toMatching.Stores code (store.spawn env).2 other :=
      stores.toStores.changeFirst (by simp [Store.spawn]) (Nat.le_refl _) fun pair =>
        Store.frame?_addFrame_of_lt (stores.present pair).1 _
    refine ⟨kept, fun {place frame} found => ?_, fun {place frame right} found pair => ?_⟩
    · rw [Store.spawn, Store.frame?_addFrame]
      rcases own_update_cases found with ⟨rfl, same⟩ | ⟨differs, found⟩
      · rw [if_pos rfl, same]
      · rw [if_neg differs, stores.kept found]
    · rcases own_update_cases found with ⟨rfl, _⟩ | ⟨_, found⟩
      · exact Nat.lt_irrefl _ (stores.present pair).1
      · exact stores.unmatched found pair

/-- The first run binds a name in a frame that it has to itself. -/
theorem Stores.bindFirst (mine : w.own id = some frame) (name : String) (value : Value)
    : (w.withOwn id (some { frame with bindings := frame.bindings.insert name value })).Stores code
        (store.bind id name value) other := by
  have kept : w.toMatching.Stores code (store.bind id name value) other := by
    refine stores.toStores.changeFirst (Nat.le_of_eq (store.size_bind id name value).symm)
      (Nat.le_refl _) fun {left right} pair => ?_
    rw [Store.frame?_bind, if_neg]
    rintro rfl
    exact stores.unmatched mine pair
  refine ⟨kept, fun {place other} found => ?_, fun {place other right} found pair => ?_⟩
  · rw [Store.frame?_bind]
    rcases own_update_cases found with ⟨rfl, same⟩ | ⟨differs, found⟩
    · rw [if_pos rfl, stores.kept mine]
      exact same
    · rw [if_neg (Ne.symm differs), stores.kept found]
  · rcases own_update_cases found with ⟨rfl, _⟩ | ⟨_, found⟩
    · exact stores.unmatched mine pair
    · exact stores.unmatched found pair

/-- The second run makes a frame with the contents of one that the first run has to itself. -/
theorem Stores.adopt (mine : w.own id = some frame) {frame' : Frame}
    (older : ∀ outer, frame.parent = some outer → outer < id)
    (parents : Option.Rel w.frames frame.parent frame'.parent)
    (bindings
      : ∀ name,
          Option.Rel (Value.Alike (w.Closures code)) (frame.bindings.get? name)
            (frame'.bindings.get? name))
    : (w.sharing id other.frames.size).Stores code store (other.addFrame frame').2 where
  toStores := stores.toStores.adopt (stores.kept mine) (fun _ => stores.unmatched mine) older
    parents bindings
  kept := by
    intro place kept found
    rcases own_update_cases found with ⟨_, same⟩ | ⟨_, found⟩
    · cases same
    · exact stores.kept found
  unmatched := by
    intro place kept right found pair
    rcases own_update_cases found with ⟨_, same⟩ | ⟨differs, found⟩
    · cases same
    · rcases pair with pair | ⟨same, _⟩
      · exact stores.unmatched found pair
      · exact differs same

end Keeping

/-- A matching of runs of which the first has no frames to itself. -/
def ofMatching (m : Matching) : PrivateMatching :=
  ⟨m, fun _ => none⟩

theorem stores_ofMatching {m : Matching} (stores : m.Stores code store other)
    : (ofMatching m).Stores code store other :=
  ⟨stores, fun found => (nomatch found), fun found => nomatch found⟩

/-- The correspondence of runs whose stores match and of which the first may have frames to itself. -/
def simulation (code : Expr → Expr → Prop) (malformed : Malformed → Malformed → Prop)
    (firstMayStop secondMayStop : Prop)
    : Simulation where
  World := PrivateMatching
  Extends := Extends
  Mode := Unit
  frames w _ := w.frames
  closures w := w.Closures code
  stores w := w.Stores code
  names _ := Eq
  code _ := code
  procedures _ parameters body parameters' body' := code body body' ∧ parameters = parameters'
  fillings w := w.Fillings code
  malformed := malformed
  firstMayStop := firstMayStop
  secondMayStop := secondMayStop
  preorder := inferInstance
  frames_mono grows := grows.matching.frames
  closures_mono grows := Matching.Closures.mono grows.matching
  fillings_mono grows := Matching.Fillings.mono grows.matching
  same stores one another :=
    Matching.eq_iff_of_biUnique stores.closuresUnique one.made another.made
  code_of_closures together := ⟨(), together.env, together.body, together.parameters⟩
  procedures_length procedures := congrArg List.length procedures.2
  lookup := by
    intro w _ store store' env env' name _ stores frames same
    subst same
    exact ⟨stores.lookup frames name, fun _ => rfl⟩
  bind := by
    intro w _ store store' env env' name _ value value' stores frames same together
    subst same
    exact stores.bind frames name together
  make := by
    intro w _ store store' env env' parameters body _ body' stores frames procedures
    obtain ⟨related, rfl⟩ := procedures
    exact ⟨w.withMatching (w.withClosures store.closures store'.closures),
      ⟨w.extends_withClosures _ _, fun found => found⟩, stores.makeClosure, .inr ⟨rfl, rfl⟩, frames,
      rfl, related⟩
  spawn := by
    intro w _ store store' env env' parameters body _ body' stores frames procedures
    obtain ⟨related, rfl⟩ := procedures
    exact ⟨w.withMatching (w.withFrames store.frames.size store'.frames.size),
      ⟨w.extends_withFrames _ _, fun found => found⟩, stores.spawn frames, .inr ⟨rfl, rfl⟩, rfl,
      related⟩
  fill := by
    intro w store store' name _ names _ body body' frame frame' value value' stores fillings
      together
    obtain ⟨frames, same, related⟩ := fillings
    obtain ⟨rfl, rfl⟩ := List.cons.inj same
    exact ⟨w, refl_of Extends w, stores.bind frames name together, frames, rfl, related⟩
  filled fillings := ⟨(), fillings.frame, fillings.body⟩

end PrivateMatching

end MiniLisp
