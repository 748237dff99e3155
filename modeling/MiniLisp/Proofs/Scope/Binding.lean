import MiniLisp.Proofs.Sessions.Invariant

/-! What a new binding changes about lookup.
Looking a name up goes from frame to parent until a frame binds the name. A binding made in a frame
is found by the searches that come to this frame, and by no other search.
-/

namespace MiniLisp

namespace Store

/-- The search for a name that starts in a frame comes to a place: this is the frame itself, or lies
around it with no frame before it that binds the name.
-/
inductive ComesTo (store : Store) (name : String) : FrameId → FrameId → Prop
  | here {id} (present : id < store.frames.size) : ComesTo store name id id
  | outward {id outer place} (unbound : store.local? id name = none)
    (parent : store.parent? id = some outer) (further : ComesTo store name outer place)
    : ComesTo store name id place

variable {store : Store} {name : String} {id place : FrameId}

/-- A search stays where it starts if the name is bound there. -/
theorem ComesTo.eq_of_bound (comes : store.ComesTo name id place)
    (bound : (store.local? id name).isSome)
    : id = place := by
  cases comes with
  | here present => rfl
  | outward unbound parent further =>
      rw [unbound] at bound
      cases bound

section Searching

variable (sound : store.Sound)

include sound

/-- Where no binding is found, lookup goes on in the parent. -/
theorem Sound.lookup?_outward {outer : FrameId} (unbound : store.local? id name = none)
    (parent : store.parent? id = some outer)
    : store.lookup? id name = store.lookup? outer name := by
  rw [lookup?_eq, unbound, sound.outer?_eq, parent]
  rfl

/-- Every search comes to an end, in a frame that binds the name or has no parent; what is bound
there is the result. By induction on the frame's place, since parents are older.
-/
theorem Sound.exists_comesTo (present : id < store.frames.size) (name : String)
    : ∃ place,
        store.ComesTo name id place
        ∧ ((store.local? place name).isSome ∨ store.parent? place = none)
        ∧ store.lookup? id name = store.local? place name := by
  induction id using Nat.strongRecOn with
  | ind id ih =>
      cases bound : store.local? id name with
      | some value =>
          refine ⟨id, .here present, .inl (by rw [bound]; rfl), ?_⟩
          rw [lookup?_eq, bound]
          rfl
      | none =>
          cases parent : store.parent? id with
          | none =>
              refine ⟨id, .here present, .inr parent, ?_⟩
              rw [lookup?_eq, bound, sound.outer?_eq, parent]
              rfl
          | some outer =>
              have older : outer < id := sound.parents parent
              obtain ⟨place, comes, ends, result⟩ := ih outer older (Nat.lt_trans older present)
              exact ⟨place, .outward bound parent comes, ends,
                (sound.lookup?_outward bound parent).trans result⟩

/-- A search that comes to the frame of a new binding finds it, by induction on the way. -/
theorem Sound.lookup?_bind_of_comesTo (comes : store.ComesTo name id place) (value : Value)
    : (store.bind place name value).lookup? id name = some value := by
  induction comes with
  | here present =>
      rw [lookup?_eq, local?_bind, if_pos ⟨rfl, rfl, (store.isSome_frame? _).mpr present⟩]
      rfl
  | @outward id outer place unbound parent further ih =>
      rw [lookup?_eq, local?_bind]
      split
      · rfl
      · rw [unbound, outer?_bind, sound.outer?_eq, parent]
        exact ih

/-- A search for another name, or one that does not come to the frame, finds what it did; by
induction on the place of the frame that it starts in.
-/
theorem Sound.lookup?_bind_of_not_comesTo {env : FrameId} {key : String}
    (apart : ¬ (key = name ∧ store.ComesTo name id env)) (value : Value)
    : (store.bind env name value).lookup? id key = store.lookup? id key := by
  induction id using Nat.strongRecOn with
  | ind id ih =>
      have kept : (store.bind env name value).local? id key = store.local? id key := by
        rw [local?_bind, if_neg]
        rintro ⟨rfl, rfl, present⟩
        exact apart ⟨rfl, .here ((store.isSome_frame? _).mp present)⟩
      rw [lookup?_eq, lookup?_eq store, kept, outer?_bind, sound.outer?_eq]
      cases bound : store.local? id key with
      | some found => rfl
      | none =>
          cases parent : store.parent? id with
          | none => rfl
          | some outer =>
              refine ih outer (sound.parents parent) fun ⟨same, comes⟩ => apart ⟨same, ?_⟩
              exact .outward (same ▸ bound) parent comes

end Searching

end Store

namespace Session

open Store

/-- In every store of a session, binding a name in a frame gives what the frame itself bound it to
before, and changes that alone of all that frames bind. A lookup gives the new value if it is for
this name and its search comes to this frame, and otherwise what it gave before. Every lookup ends,
with the innermost binding.
-/
theorem binding_changes_searches_that_come_to_it {state : State}
    (reached : Relation.ReflTransGen Step .start state) {env : FrameId}
    (present : env < state.store.frames.size) (name : String) (value : Value)
    : (state.store.set env name value).1 = state.store.local? env name
      ∧ (∀ id key,
          (state.store.set env name value).2.local? id key
          = if id = env ∧ key = name then some value else state.store.local? id key)
      ∧ (∀ id,
          state.store.ComesTo name id env
          → (state.store.set env name value).2.lookup? id name = some value)
      ∧ (∀ id key,
          ¬ (key = name ∧ state.store.ComesTo name id env)
          → (state.store.set env name value).2.lookup? id key = state.store.lookup? id key)
      ∧ ∀ id < state.store.frames.size,
          ∀ key, ∃ place,
            state.store.ComesTo key id place
            ∧ ((state.store.local? place key).isSome ∨ state.store.parent? place = none)
            ∧ state.store.lookup? id key = state.store.local? place key := by
  have sound : state.store.Sound := (sound_of_steps reached State.sound_start).1.store
  refine ⟨rfl, fun id key => ?_, fun id comes => sound.lookup?_bind_of_comesTo comes value,
    fun id key apart => sound.lookup?_bind_of_not_comesTo apart value,
    fun id there key => sound.exists_comesTo there key⟩
  have there : (state.store.frame? env).isSome := (state.store.isSome_frame? env).mpr present
  rw [Store.set, local?_bind]
  by_cases same : id = env ∧ key = name
  · obtain ⟨rfl, rfl⟩ := same
    rw [if_pos ⟨rfl, rfl, there⟩, if_pos ⟨rfl, rfl⟩]
  · rw [if_neg same, if_neg]
    rintro ⟨rfl, rfl, _⟩
    exact same ⟨rfl, rfl⟩

/-- Of two frames in a global one, the first binds a name and holds another frame. Binding the name
in the global frame is seen in the second and not behind the first.
-/
theorem binding_is_seen_past_no_other
    : ∃ state,
        Relation.ReflTransGen Step .start state
        ∧ 0 < state.store.frames.size
        ∧ (state.store.set 0 "x" (.integer .zero)).1 = none
        ∧ (state.store.set 0 "x" (.integer .zero)).2.lookup? 3 "x" = some (.integer .zero)
        ∧ (state.store.set 0 "x" (.integer .zero)).2.lookup? 2 "x" = state.store.lookup? 2 "x"
        ∧ state.store.local? 1 "x" = some (.integer .one)
        ∧ ∃ place,
            state.store.ComesTo "x" 2 place
            ∧ ((state.store.local? place "x").isSome ∨ state.store.parent? place = none)
            ∧ state.store.lookup? 2 "x" = state.store.local? place "x" := by
  have session
      : ∃ state,
          Relation.ReflTransGen Step .start state
          ∧ 3 < state.store.frames.size
          ∧ state.store.local? 0 "x" = none
          ∧ state.store.ComesTo "x" 3 0
          ∧ state.store.parent? 2 = some 1
          ∧ state.store.local? 1 "x" = some (.integer .one) := by
    refine ⟨_, .head .global (.head (@Step.spawn _ 0 (by decide))
      (.head (@Step.spawn _ 1 (by decide)) (.head (@Step.spawn _ 0 (by decide))
        (.single (@Step.set _ 1 "x" (.integer .one) (by decide) (.plain nofun)))))), by decide, rfl,
      .outward rfl rfl (.here (by decide)), rfl, rfl⟩
  obtain ⟨state, reached, size, unbound, comes, inside, shadowed⟩ := session
  have present : 0 < state.store.frames.size := Nat.zero_lt_of_lt size
  obtain ⟨previous, _, seen, unseen, ends⟩ :=
    binding_changes_searches_that_come_to_it reached present "x" (.integer .zero)
  refine ⟨state, reached, present, previous.trans unbound, seen 3 comes, unseen 2 "x" ?_, shadowed,
    ends 2 (Nat.lt_of_succ_lt size) "x"⟩
  rintro ⟨_, comesOut⟩
  cases comesOut with
  | outward _ parent further =>
      obtain rfl := Option.some.inj (inside.symm.trans parent)
      cases further.eq_of_bound (by rw [shadowed]; rfl)

end Session

end MiniLisp
