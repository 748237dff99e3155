import Mathlib.Data.List.Forall2
import Mathlib.Data.List.Infix
import Mathlib.Data.List.Sort
import MiniLisp.Store.Lemmas

/-! Lookup one frame at a time, and the lookups that tell bindings apart.
Scopes are compared by what they bind: two scopes in which each name is found together hold the same
names in the same order.
-/

namespace Option.Rel

variable {Left Right : Type} {related weaker : Left → Right → Prop} {left : Option Left}
  {right : Option Right}

theorem imp (weaken : ∀ one another, related one another → weaker one another)
    (together : Option.Rel related left right)
    : Option.Rel weaker left right := by
  cases together with
  | some related => exact .some (weaken _ _ related)
  | none => exact .none

theorem isSome_eq (together : Option.Rel related left right) : left.isSome = right.isSome := by
  cases together <;> rfl

theorem exists_right (together : Option.Rel related left right) {one : Left}
    (found : left = .some one)
    : ∃ another, right = .some another ∧ related one another := by
  subst found
  cases together with
  | some related => exact ⟨_, rfl, related⟩

theorem exists_left (together : Option.Rel related left right) {another : Right}
    (found : right = .some another)
    : ∃ one, left = .some one ∧ related one another := by
  subst found
  cases together with
  | some related => exact ⟨_, rfl, related⟩

end Option.Rel

namespace MiniLisp

section Growing

variable {Item : Type} {items : List Item} {place : Nat} {item : Item}

/-- What stands in a list stands in the same place when the list has grown. -/
theorem getElem?_of_extends {more : List Item} (grows : items <+: more)
    (found : items[place]? = some item)
    : more[place]? = some item := by
  obtain ⟨present, same⟩ := List.getElem?_eq_some_iff.mp found
  rw [List.prefix_iff_getElem?.mp grows place present, same]

/-- What stands in a list with one more item stood there before or is the newcomer. -/
theorem getElem?_concat_cases {last : Item} (found : (items ++ [last])[place]? = some item)
    : items[place]? = some item ∨ place = items.length ∧ item = last := by
  rcases Nat.lt_trichotomy place items.length with earlier | rfl | later
  · exact .inl (List.getElem?_append_left earlier ▸ found)
  · rw [List.getElem?_concat_length] at found
    exact .inr ⟨rfl, (Option.some.inj found).symm⟩
  · rw [List.getElem?_eq_none (by simpa using Nat.succ_le_of_lt later)] at found
    cases found

end Growing

namespace Bindings

variable {Content Content' : Type}

/-- A name is listed exactly when it is found, by induction on the entries. -/
theorem mem_names_iff (bindings : Bindings Content) (name : String)
    : name ∈ bindings.names ↔ (bindings.get? name).isSome := by
  unfold names get?
  induction bindings.entries with
  | nil => simp [find?]
  | cons head rest ih =>
      by_cases same : head.1 = name
      · simp [find?, same]
      · simp [find?, same, ih, Ne.symm same]

/-- Bindings that find the same names list the same names, since both lists are in order. -/
theorem names_eq_of_get? {bindings : Bindings Content} {other : Bindings Content'}
    (together : ∀ name, (bindings.get? name).isSome = (other.get? name).isSome)
    : bindings.names = other.names := by
  have ordered : bindings.names.Pairwise (· < ·) := List.pairwise_map.mpr bindings.sorted
  have ordered' : other.names.Pairwise (· < ·) := List.pairwise_map.mpr other.sorted
  refine ordered.eq_of_mem_iff ordered' fun name => ?_
  rw [mem_names_iff, mem_names_iff, together]

/-- Binding two lists of entries in order keeps what two names are bound to together, if each entry
binds the one name where its counterpart binds the other; by induction on the entries.
-/
theorem get?_insertAll_rel {related : Content → Content' → Prop} {name name' : String}
    {entries : List (String × Content)} {entries' : List (String × Content')}
    (together
      : List.Forall₂ (fun entry entry' =>
          (entry.1 = name ↔ entry'.1 = name') ∧ related entry.2 entry'.2) entries entries')
    {bindings : Bindings Content} {other : Bindings Content'}
    (before : Option.Rel related (bindings.get? name) (other.get? name'))
    : Option.Rel related ((bindings.insertAll entries).get? name)
        ((other.insertAll entries').get? name') := by
  induction together generalizing bindings other with
  | nil => exact before
  | @cons entry entry' _ _ head _ ih =>
      refine ih ?_
      rw [get?_insert, get?_insert]
      by_cases same : entry.1 = name
      · rw [if_pos same, if_pos (head.1.mp same)]
        exact .some head.2
      · rw [if_neg same, if_neg (mt head.1.mpr same)]
        exact before

/-- Names bound to contents in order, side by side. -/
theorem get?_insertAll_zip {related : Content → Content' → Prop} {name name' : String}
    {keys keys' : List String}
    (named : List.Forall₂ (fun key key' => key = name ↔ key' = name') keys keys')
    {contents : List Content} {contents' : List Content'}
    (together : List.Forall₂ related contents contents')
    : Option.Rel related (((∅ : Bindings Content).insertAll (keys.zip contents)).get? name)
        (((∅ : Bindings Content').insertAll (keys'.zip contents')).get? name') := by
  refine get?_insertAll_rel ?_ .none
  induction named generalizing contents contents' with
  | nil => exact .nil
  | cons head _ ih =>
      cases together with
      | nil => exact .nil
      | cons content rest => exact .cons ⟨head, content⟩ (ih rest)

/-- A name is found once it is bound, by induction on the entries. -/
theorem isSome_get?_insertAll {name : String} {entries : List (String × Content)}
    {bindings : Bindings Content}
    (bound : name ∈ entries.map (·.1) ∨ (bindings.get? name).isSome)
    : ((bindings.insertAll entries).get? name).isSome := by
  induction entries generalizing bindings with
  | nil => exact bound.resolve_left List.not_mem_nil
  | cons entry rest ih =>
      refine ih ?_
      rw [get?_insert]
      split
      · exact .inr rfl
      · next differs =>
        refine bound.imp_left fun member => ?_
        exact (List.mem_cons.mp member).resolve_left fun same => differs same.symm

end Bindings

namespace Store

/-- The frame in which the search for a name goes on: the one around it, which is older. -/
def outer? (store : Store) (id : FrameId) : Option FrameId :=
  (store.parent? id).filter (· < id)

theorem outer?_lt {store : Store} {id outer : FrameId} (found : store.outer? id = some outer)
    : outer < id := by
  simpa using (Option.filter_eq_some_iff.mp found).2

theorem isSome_frame? (store : Store) (id : FrameId)
    : (store.frame? id).isSome ↔ id < store.frames.size := by
  simp [frame?]

/-- What a name means in a frame is what the frame binds it to, or else what it means outside. -/
theorem lookup?_eq (store : Store) (id : FrameId) (name : String)
    : store.lookup? id name
      = (store.local? id name).or ((store.outer? id).bind (store.lookup? · name)) := by
  unfold lookup?
  rw [chain_eq]
  cases present : store.frame? id with
  | none => simp [local?, outer?, parent?, present]
  | some frame =>
      rw [Option.isSome_some, if_pos rfl, List.findSome?_cons, ← outer?]
      cases store.local? id name with
      | some value => rfl
      | none => cases store.outer? id <;> rfl

@[simp]
theorem outer?_bind (store : Store) (id other : FrameId) (name : String) (value : Value)
    : (store.bind id name value).outer? other = store.outer? other := by
  unfold outer?
  rw [parent?_bind]

theorem outer?_addFrame_of_lt {store : Store} {id : FrameId} (old : id < store.frames.size)
    (frame : Frame)
    : (store.addFrame frame).2.outer? id = store.outer? id := by
  unfold outer? parent?
  rw [frame?_addFrame_of_lt old]

@[simp]
theorem size_addFrame (store : Store) (frame : Frame)
    : (store.addFrame frame).2.frames.size = store.frames.size + 1 :=
  Array.size_push frame

theorem local?_addFrame_new (store : Store) (frame : Frame) (name : String)
    : (store.addFrame frame).2.local? store.frames.size name = frame.bindings.get? name := by
  rw [local?, frame?_addFrame, if_pos rfl]
  rfl

theorem outer?_addFrame_new (store : Store) (frame : Frame)
    : (store.addFrame frame).2.outer? store.frames.size
      = frame.parent.filter (· < store.frames.size) := by
  rw [outer?, parent?, frame?_addFrame, if_pos rfl]
  rfl

@[simp]
theorem size_spawn (store : Store) (env : FrameId)
    : (store.spawn env).2.frames.size = store.frames.size + 1 :=
  size_addFrame store _

theorem local?_spawn_new (store : Store) (env : FrameId) (name : String)
    : (store.spawn env).2.local? store.frames.size name = none :=
  local?_addFrame_new store _ name

theorem local?_spawn_of_lt {store : Store} {id : FrameId} (old : id < store.frames.size)
    (env : FrameId) (name : String)
    : (store.spawn env).2.local? id name = store.local? id name :=
  local?_addFrame_of_lt old _ name

theorem outer?_spawn_of_lt {store : Store} {id : FrameId} (old : id < store.frames.size)
    (env : FrameId)
    : (store.spawn env).2.outer? id = store.outer? id :=
  outer?_addFrame_of_lt old _

theorem outer?_spawn_new {store : Store} {env : FrameId} (present : env < store.frames.size)
    : (store.spawn env).2.outer? store.frames.size = some env := by
  rw [spawn, outer?_addFrame_new]
  simp [present]

/-- The chain of a frame made inside another is that frame and the other's chain. -/
theorem chain_spawn_new {store : Store} {env : FrameId} (present : env < store.frames.size)
    : (store.spawn env).2.chain store.frames.size = store.frames.size :: store.chain env := by
  have here : ((store.spawn env).2.frame? store.frames.size).isSome := by
    rw [isSome_frame?, spawn, size_addFrame]
    exact Nat.lt_succ_self _
  rw [chain_eq, if_pos here, ← outer?, outer?_spawn_new present, Option.elim_some, spawn,
    chain_addFrame_of_lt present]

end Store

end MiniLisp
