import MiniLisp.Proofs.Scope.Soundness

/-! What can be reached from a frame: outwards from frame to frame, and through the closures that
frames hold.
-/

namespace MiniLisp.Store

/-- A frame can be reached from a root: it is the root, lies around a frame that can be reached, or
is captured by a closure that such a frame holds.
-/
inductive Reaches (store : Store) (root : FrameId) : FrameId → Prop
  | here : Reaches store root root
  | outward {id outer} (reached : Reaches store root id) (around : store.outer? id = some outer)
    : Reaches store root outer
  | captured {id name closure} (reached : Reaches store root id)
    (held : store.local? id name = some (.closure closure))
    : Reaches store root closure.env

/-- The identity of a closure can be reached from a root: a frame that can be reached holds the
closure.
-/
inductive ReachesClosure (store : Store) (root : FrameId) : Nat → Prop
  | held {id name closure} (reached : store.Reaches root id)
    (held : store.local? id name = some (.closure closure))
    : ReachesClosure store root closure.id

variable {store : Store} {root id : FrameId}

/-- In a sound store every parent is older than the frame in it, so each parent link leads on. -/
theorem Reaches.parent (sound : store.Sound) (reached : store.Reaches root id) {parent : FrameId}
    (found : store.parent? id = some parent)
    : store.Reaches root parent :=
  reached.outward ((sound.outer?_eq id).trans found)

/-- What one store reaches, another reaches with it, if frames that go together lead on to frames
that do; by induction on the path.
-/
theorem Reaches.exists_related {other : Store} (related : FrameId → FrameId → Prop)
    (outward
      : ∀ {left right outer},
          related left right
          → store.outer? left = some outer
          → ∃ outer', other.outer? right = some outer' ∧ related outer outer')
    (captured
      : ∀ {left right name closure},
          related left right
          → store.local? left name = some (.closure closure)
          → ∃ closure',
              other.local? right name = some (.closure closure')
              ∧ related closure.env closure'.env)
    {root' : FrameId} (roots : related root root') (reached : store.Reaches root id)
    : ∃ id', related id id' ∧ other.Reaches root' id' := by
  induction reached with
  | here => exact ⟨root', roots, .here⟩
  | outward _ around ih =>
      obtain ⟨id', together, reached'⟩ := ih
      obtain ⟨outer', around', further⟩ := outward together around
      exact ⟨outer', further, reached'.outward around'⟩
  | captured _ held ih =>
      obtain ⟨id', together, reached'⟩ := ih
      obtain ⟨closure', held', further⟩ := captured together held
      exact ⟨closure'.env, further, reached'.captured held'⟩

end MiniLisp.Store
