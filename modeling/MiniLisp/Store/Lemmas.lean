import MiniLisp.Store.Basic

/-! What the store's operations do to its frames, their parents and lookup.
A binding changes what one frame binds one name to and no chain. A frame added changes nothing about
the frames before it, and may be filled as it is added or afterwards.
-/

namespace MiniLisp.Store

/-- Binding a name changes the bindings of its frame only. -/
theorem frame?_bind (store : Store) (id other : FrameId) (name : String) (value : Value)
    : (store.bind id name value).frame? other
      = if id = other then
          (store.frame? other).map fun frame =>
            { frame with bindings := frame.bindings.insert name value }
        else store.frame? other :=
  Array.getElem?_modify

/-- Binding a name changes no parent, by the frames it leaves. -/
@[simp]
theorem parent?_bind (store : Store) (id other : FrameId) (name : String) (value : Value)
    : (store.bind id name value).parent? other = store.parent? other := by
  unfold parent?
  rw [frame?_bind]
  split <;> cases store.frame? other <;> rfl

/-- Binding a name changes what its frame binds it to, and no other binding of a frame. -/
theorem local?_bind (store : Store) (id other : FrameId) (name key : String) (value : Value)
    : (store.bind id name value).local? other key
      = if id = other ∧ name = key ∧ (store.frame? other).isSome then some value
        else store.local? other key := by
  unfold local?
  rw [frame?_bind]
  by_cases frame : id = other
  · cases found : store.frame? other with
    | none => simp [frame]
    | some old => by_cases same : name = key <;> simp [frame, same, Bindings.get?_insert]
  · simp [frame]

/-- Frames are as many after binding a name. -/
@[simp]
theorem size_bind (store : Store) (id : FrameId) (name : String) (value : Value)
    : (store.bind id name value).frames.size = store.frames.size :=
  Array.size_modify

/-- A chain by the parent of its first frame. -/
theorem chain_eq (store : Store) (id : FrameId)
    : store.chain id
      = if (store.frame? id).isSome then
          id :: ((store.parent? id).filter (· < id)).elim [] store.chain
        else [] := by
  rw [chain]
  unfold parent?
  cases store.frame? id with
  | none => rfl
  | some frame =>
      cases parent : frame.parent with
      | none => simp [parent]
      | some outer => by_cases older : outer < id <;> simp [parent, Option.filter, older]

/-- Frames of the same parents have the same chains, by induction on the frame's place. -/
theorem chain_congr {store other : Store}
    (present : ∀ id, (store.frame? id).isSome = (other.frame? id).isSome)
    (parents : ∀ id, store.parent? id = other.parent? id) (id : FrameId)
    : store.chain id = other.chain id := by
  induction id using Nat.strongRecOn with
  | ind id ih =>
      rw [chain_eq, chain_eq, present, parents]
      cases found : (other.parent? id).filter (· < id) with
      | none => rfl
      | some outer =>
          have older : outer < id := by simpa using (Option.filter_eq_some_iff.mp found).2
          simp only [Option.elim_some, ih outer older]

/-- Binding a name changes no chain. -/
@[simp]
theorem chain_bind (store : Store) (id other : FrameId) (name : String) (value : Value)
    : (store.bind id name value).chain other = store.chain other := by
  refine chain_congr (fun place => ?_) (fun place => parent?_bind ..) other
  rw [frame?_bind]
  split <;> simp

/-- Adding a frame puts it at the next place and moves no other. -/
theorem frame?_addFrame (store : Store) (frame : Frame) (id : FrameId)
    : (store.addFrame frame).2.frame? id
      = if id = store.frames.size then some frame else store.frame? id :=
  Array.getElem?_push

/-- The place of a frame added is the next. -/
@[simp]
theorem fst_addFrame (store : Store) (frame : Frame)
    : (store.addFrame frame).1 = store.frames.size :=
  rfl

/-- Adding a frame changes no frame before it. -/
theorem frame?_addFrame_of_lt {store : Store} {id : FrameId} (old : id < store.frames.size)
    (frame : Frame)
    : (store.addFrame frame).2.frame? id = store.frame? id := by
  rw [frame?_addFrame, if_neg (Nat.ne_of_lt old)]

/-- Adding a frame changes no chain of a frame before it, by induction on the frame's place. -/
theorem chain_addFrame_of_lt {store : Store} {id : FrameId} (old : id < store.frames.size)
    (frame : Frame)
    : (store.addFrame frame).2.chain id = store.chain id := by
  induction id using Nat.strongRecOn with
  | ind id ih =>
      rw [chain_eq, chain_eq, parent?, parent?, frame?_addFrame_of_lt old]
      cases found : ((store.frame? id).bind (·.parent)).filter (· < id) with
      | none => rfl
      | some outer =>
          have older : outer < id := by simpa using (Option.filter_eq_some_iff.mp found).2
          simp only [Option.elim_some, ih outer older (Nat.lt_trans older old)]

/-- A chain leads to older frames only, by induction on the frame's place. -/
theorem le_of_mem_chain {store : Store} {id other : FrameId} (member : other ∈ store.chain id)
    : other ≤ id := by
  induction id using Nat.strongRecOn with
  | ind id ih =>
      rw [chain_eq] at member
      split at member
      · rcases List.mem_cons.mp member with rfl | member
        · exact Nat.le_refl _
        · cases found : (store.parent? id).filter (· < id) with
          | none => simp [found] at member
          | some outer =>
              have older : outer < id := by simpa using (Option.filter_eq_some_iff.mp found).2
              rw [found] at member
              exact Nat.le_trans (ih outer older member) (Nat.le_of_lt older)
      · cases member

/-- Adding a frame changes nothing that a frame before it binds. -/
theorem local?_addFrame_of_lt {store : Store} {id : FrameId} (old : id < store.frames.size)
    (frame : Frame) (name : String)
    : (store.addFrame frame).2.local? id name = store.local? id name := by
  rw [local?, local?, frame?_addFrame_of_lt old]

/-- Binds each name in one frame, from first to last. -/
def bindAll (store : Store) (id : FrameId) (entries : List (String × Value)) : Store :=
  entries.foldl (fun store entry => store.bind id entry.1 entry.2) store

/-- A frame may as well be added with a binding as bind the name once it has been added. -/
theorem bind_addFrame_new (store : Store) (frame : Frame) (name : String) (value : Value)
    : (store.addFrame frame).2.bind store.frames.size name value
      = (store.addFrame { frame with bindings := frame.bindings.insert name value }).2 := by
  unfold addFrame bind
  congr 1
  refine Array.ext_getElem? fun place => ?_
  rw [Array.getElem?_modify, Array.getElem?_push, Array.getElem?_push]
  by_cases new : place = store.frames.size
  · simp [new]
  · simp [new, Ne.symm new]

/-- So with several bindings, by induction on them. -/
theorem bindAll_addFrame_new (store : Store) (frame : Frame) (entries : List (String × Value))
    : (store.addFrame frame).2.bindAll store.frames.size entries
      = (store.addFrame { frame with bindings := frame.bindings.insertAll entries }).2 := by
  induction entries generalizing frame with
  | nil => rfl
  | cons entry rest ih =>
      calc
        _ = ((store.addFrame frame).2.bind store.frames.size entry.1 entry.2).bindAll
              store.frames.size rest := rfl
        _ = (store.addFrame
              { frame with bindings := frame.bindings.insert entry.1 entry.2 }).2.bindAll
              store.frames.size rest := by rw [bind_addFrame_new]
        _ = _ := ih _

/-- A frame with bindings is an empty one in which the names are bound one after the other. -/
theorem spawnWith_eq_bindAll (store : Store) (parent : FrameId) (entries : List (String × Value))
    : store.spawnWith parent entries
      = ((store.spawn parent).1,
          (store.spawn parent).2.bindAll (store.spawn parent).1 entries) :=
  Prod.ext rfl (bindAll_addFrame_new store ⟨∅, some parent⟩ entries).symm

end MiniLisp.Store
