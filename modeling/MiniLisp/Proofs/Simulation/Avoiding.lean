import MiniLisp.Proofs.Simulation.Congruence
import MiniLisp.Proofs.Simulation.Matching

/-! Stores that match apart from given frames of the second.
A frame that is made later is none of those that were there, so what matches goes on to keep apart
from them.
-/

namespace MiniLisp.Matching

/-- Stores that match, where nothing in the first belongs to the given frames of the second. -/
structure StoresApart (m : Matching) (avoided : FrameId → Prop) (store other : Store) : Prop
    extends m.Stores Eq store other where
  old : ∀ {place}, avoided place → place < other.frames.size
  apart : ∀ {left right}, m.frames left right → ¬ avoided right

variable {m : Matching} {avoided : FrameId → Prop} {store other : Store}

theorem StoresApart.bind (stores : m.StoresApart avoided store other) {env env' : FrameId}
    (frames : m.frames env env') (name : String) {value value' : Value}
    (together : Value.Alike (m.Closures Eq) value value')
    : m.StoresApart avoided (store.bind env name value) (other.bind env' name value') where
  toStores := stores.toStores.bind frames name together
  old place := by
    rw [Store.size_bind]
    exact stores.old place
  apart := stores.apart

theorem StoresApart.makeClosure (stores : m.StoresApart avoided store other)
    : (m.withClosures store.closures other.closures).StoresApart avoided
        { store with closures := store.closures + 1 }
        { other with closures := other.closures + 1 } where
  toStores := stores.toStores.makeClosure
  old := stores.old
  apart := stores.apart

theorem StoresApart.addFrame (stores : m.StoresApart avoided store other) {frame frame' : Frame}
    (parents : Option.Rel m.frames frame.parent frame'.parent)
    (bindings
      : ∀ name,
          Option.Rel (Value.Alike (m.Closures Eq)) (frame.bindings.get? name)
            (frame'.bindings.get? name))
    : (m.withFrames store.frames.size other.frames.size).StoresApart avoided
        (store.addFrame frame).2 (other.addFrame frame').2 where
  toStores := stores.toStores.addFrame parents bindings
  old place := by
    rw [Store.size_addFrame]
    exact Nat.lt_succ_of_lt (stores.old place)
  apart := by
    rintro left right (pair | ⟨rfl, rfl⟩) place
    · exact stores.apart pair place
    · exact Nat.lt_irrefl _ (stores.old place)

/-- The second store may change in the frames kept apart from, and grow. Frames that have been added
may be kept apart from as well.
-/
theorem StoresApart.changeSecond {avoided' : FrameId → Prop} {after : Store}
    (stores : m.StoresApart avoided store other)
    (size : other.frames.size ≤ after.frames.size) (closures : other.closures ≤ after.closures)
    (frames : ∀ id < other.frames.size, ¬ avoided id → after.frame? id = other.frame? id)
    (wider
      : ∀ place, avoided' place → avoided place ∨ other.frames.size = place ∧ place < after.frames.size)
    : m.StoresApart avoided' store after := by
  have same {left right : FrameId} (pair : m.frames left right)
      : after.frame? right = other.frame? right :=
    frames right (stores.present pair).2 (stores.apart pair)
  refine ⟨stores.toStores.changeSecond size closures (fun pair => ?_) (fun pair name => ?_), ?_, ?_⟩
  · rw [Store.parent?, Store.parent?, same pair]
  · rw [Store.local?, Store.local?, same pair]
  · intro place kept
    rcases wider place kept with kept | ⟨_, present⟩
    · exact Nat.lt_of_lt_of_le (stores.old kept) size
    · exact present
  · intro left right pair kept
    rcases wider right kept with kept | ⟨rfl, _⟩
    · exact stores.apart pair kept
    · exact Nat.lt_irrefl _ (stores.present pair).2

/-- The correspondence of runs whose stores match apart from given frames. -/
def apart (avoided : FrameId → Prop) : Simulation :=
  { simulation Eq Eq False False with
    stores := fun m => m.StoresApart avoided
    same := fun stores => (simulation Eq Eq False False).same stores.toStores
    lookup := fun stores => (simulation Eq Eq False False).lookup stores.toStores
    bind := by
      intro m _ store store' env env' name _ value value' stores frames same together
      subst same
      exact stores.bind frames name together
    make := by
      intro m _ store store' env env' parameters body _ body' stores frames procedures
      obtain ⟨rfl, related⟩ := procedures
      exact ⟨_, m.extends_withClosures store.closures store'.closures, stores.makeClosure,
        .inr ⟨rfl, rfl⟩, frames, rfl, related⟩
    spawn := by
      intro m _ store store' env env' parameters body _ body' stores frames procedures
      obtain ⟨rfl, related⟩ := procedures
      exact ⟨_, m.extends_withFrames store.frames.size store'.frames.size,
        stores.addFrame (.some frames) fun _ => .none, .inr ⟨rfl, rfl⟩, rfl, related⟩
    fill := by
      intro m store store' name _ names _ body body' frame frame' value value' stores fillings
        together
      obtain ⟨frames, same, related⟩ := fillings
      obtain ⟨rfl, rfl⟩ := List.cons.inj same
      exact ⟨m, refl_of Extends m, stores.bind frames name together, frames, rfl, related⟩ }

theorem apart_relatedEvaluators (avoided : FrameId → Prop) (depth : Nat)
    : (apart avoided).RelatedEvaluators (evaluate depth) (evaluate depth) :=
  @Simulation.relatedEvaluators_of_eq (apart avoided) id (fun _ _ => rfl) (fun _ _ => rfl)
    (fun _ _ _ => ⟨rfl, rfl⟩) (fun _ => rfl) depth

end MiniLisp.Matching
