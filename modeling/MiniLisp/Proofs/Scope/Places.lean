import Mathlib.Order.Defs.Unbundled
import MiniLisp.Proofs.Scope.Lookup

/-! Where frames lie while they are made and filled.
Frames lie on sides, and with them the code that is evaluated in them. Some come to lie on a side only
when a name is bound in them, as the frame of a `let` may while its expressions are evaluated. No code
is evaluated in these before, and no other frame is made inside them.
-/

namespace MiniLisp

/-- A frame lies on a side, or is about to. -/
inductive Place (Side : Type)
  | settled (side : Side)
  | entering (side : Side)

/-- The side that a frame lies on or is about to lie on. -/
def Place.side {Side : Type} : Place Side → Side
  | settled side => side
  | entering side => side

/-- Frames stay where they are, unless they come to lie where they were about to. -/
def Settling {Side : Type} (places later : List (Place Side)) : Prop :=
  ∀ (frame : FrameId) (place : Place Side),
    places[frame]? = some place
    → later[frame]? = some place ∨ later[frame]? = some (.settled place.side)

section Settling

variable {Side : Type} {places later : List (Place Side)} {frame : FrameId} {side : Side}

theorem Settling.settled (grows : Settling places later)
    (found : places[frame]? = some (.settled side))
    : later[frame]? = some (.settled side) :=
  (grows frame _ found).elim (fun found => found) fun found => found

instance : IsPreorder (List (Place Side)) Settling where
  refl _ _ _ found := .inl found
  trans _ _ _ first second frame place found :=
    (first frame place found).elim (second frame place) fun settled =>
      .inr (second.settled settled)

theorem settling_append (places : List (Place Side)) (new : Place Side)
    : Settling places (places ++ [new]) :=
  fun _ _ found => .inl (getElem?_of_extends (List.prefix_append _ _) found)

/-- What lies where once a frame has settled lay there before, or is that frame. -/
theorem getElem?_settle_cases {other : FrameId} {place : Place Side}
    (found : (places.set frame (.settled side))[other]? = some place)
    : places[other]? = some place ∨ other = frame ∧ place = .settled side := by
  by_cases same : frame = other
  · subst same
    rw [List.getElem?_set_self'] at found
    obtain ⟨_, _, rfl⟩ := Option.map_eq_some_iff.mp found
    exact .inr ⟨rfl, rfl⟩
  · rw [List.getElem?_set_ne same] at found
    exact .inl found

theorem settling_settle (found : places[frame]? = some (.entering side))
    : Settling places (places.set frame (.settled side)) := by
  intro other place present
  by_cases same : frame = other
  · subst same
    obtain rfl := Option.some.inj (found.symm.trans present)
    rw [List.getElem?_set_self (List.getElem?_eq_some_iff.mp found).1]
    exact .inr rfl
  · rw [List.getElem?_set_ne same]
    exact .inl present

end Settling

/-- Stores that have the same frames and have made equally many closures. Around a frame are settled
ones.
-/
structure LaidOut {Side : Type} (places : List (Place Side)) (store other : Store) : Prop where
  size : store.frames.size = places.length
  size' : other.frames.size = places.length
  closures : store.closures = other.closures
  outer : ∀ {id place}, places[id]? = some place → store.outer? id = other.outer? id
  around
    : ∀ {id place outer},
        places[id]? = some place
        → store.outer? id = some outer
        → ∃ side, places[outer]? = some (.settled side)

namespace LaidOut

variable {Side : Type} {places : List (Place Side)} {store other : Store}
  (laid : LaidOut places store other)

include laid

theorem present {id : FrameId} {place : Place Side} (found : places[id]? = some place)
    : id < store.frames.size ∧ id < other.frames.size := by
  rw [laid.size, laid.size', and_self]
  exact (List.getElem?_eq_some_iff.mp found).1

theorem bindFirst (env : FrameId) (name : String) (value : Value)
    : LaidOut places (store.bind env name value) other where
  size := (store.size_bind env name value).trans laid.size
  size' := laid.size'
  closures := laid.closures
  outer found := (store.outer?_bind ..).trans (laid.outer found)
  around found further := laid.around found ((store.outer?_bind ..).symm.trans further)

theorem bindSecond (env : FrameId) (name : String) (value : Value)
    : LaidOut places store (other.bind env name value) where
  size := laid.size
  size' := (other.size_bind env name value).trans laid.size'
  closures := laid.closures
  outer found := (laid.outer found).trans (other.outer?_bind ..).symm
  around := laid.around

theorem makeClosure
    : LaidOut places { store with closures := store.closures + 1 }
        { other with closures := other.closures + 1 } :=
  ⟨laid.size, laid.size', congrArg (· + 1) laid.closures, laid.outer, laid.around⟩

/-- A frame comes to lie where it was about to. -/
theorem settle {id : FrameId} {side : Side} (found : places[id]? = some (.entering side))
    : LaidOut (places.set id (.settled side)) store other where
  size := by rw [List.length_set, laid.size]
  size' := by rw [List.length_set, laid.size']
  closures := laid.closures
  outer := by
    intro other place found'
    rcases getElem?_settle_cases found' with earlier | ⟨rfl, _⟩
    · exact laid.outer earlier
    · exact laid.outer found
  around := by
    intro other place outer found' further
    have around : ∃ side, places[outer]? = some (.settled side) := by
      rcases getElem?_settle_cases found' with earlier | ⟨rfl, _⟩
      · exact laid.around earlier further
      · exact laid.around found further
    obtain ⟨side', around⟩ := around
    exact ⟨side', (settling_settle found).settled around⟩

-----------------------------------------------------------------------------------------
-- New frames
-----------------------------------------------------------------------------------------

theorem fst_spawn_eq (env : FrameId) : (store.spawn env).1 = (other.spawn env).1 :=
  laid.size.trans laid.size'.symm

theorem getElem?_spawn (env : FrameId) (made : Place Side)
    : (places ++ [made])[(store.spawn env).1]? = some made := by
  rw [Store.spawn, Store.fst_addFrame, laid.size, List.getElem?_concat_length]

theorem local?_spawn_last (env : FrameId) (name : String)
    : (store.spawn env).2.local? places.length name = none
      ∧ (other.spawn env).2.local? places.length name = none :=
  ⟨laid.size ▸ store.local?_spawn_new env name, laid.size' ▸ other.local?_spawn_new env name⟩

variable {env : FrameId} {side : Side} (found : places[env]? = some (.settled side))

include found

theorem outer?_spawn_last
    : (store.spawn env).2.outer? places.length = some env
      ∧ (other.spawn env).2.outer? places.length = some env :=
  ⟨laid.size ▸ Store.outer?_spawn_new (laid.present found).1,
    laid.size' ▸ Store.outer?_spawn_new (laid.present found).2⟩

/-- A frame may be made inside a settled one, wherever it is to lie. -/
theorem spawn (made : Place Side)
    : LaidOut (places ++ [made]) (store.spawn env).2 (other.spawn env).2 := by
  have grows : places <+: places ++ [made] := List.prefix_append _ _
  obtain ⟨outer, outer'⟩ := laid.outer?_spawn_last found
  constructor
  case size => rw [Store.size_spawn, laid.size, List.length_append, List.length_singleton]
  case size' => rw [Store.size_spawn, laid.size', List.length_append, List.length_singleton]
  case closures => exact laid.closures
  case outer =>
    intro id place found'
    rcases getElem?_concat_cases found' with earlier | ⟨rfl, rfl⟩
    · obtain ⟨old, old'⟩ := laid.present earlier
      rw [Store.outer?_spawn_of_lt old, Store.outer?_spawn_of_lt old', laid.outer earlier]
    · rw [outer, outer']
  case around =>
    intro id place further found' within
    rcases getElem?_concat_cases found' with earlier | ⟨rfl, rfl⟩
    · rw [Store.outer?_spawn_of_lt (laid.present earlier).1] at within
      obtain ⟨side', around⟩ := laid.around earlier within
      exact ⟨side', getElem?_of_extends grows around⟩
    · obtain rfl := Option.some.inj (outer.symm.trans within)
      exact ⟨side, getElem?_of_extends grows found⟩

end LaidOut

end MiniLisp
