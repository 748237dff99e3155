import MiniLisp.Proofs.Scope.Places
import MiniLisp.Proofs.Scope.Soundness
import MiniLisp.Proofs.Simulation.Rules
import MiniLisp.Proofs.Substitution.Replacing

/-! Scopes in which a name stands for a number, and the others.
The first run binds the name to the number in one frame; the second binds nothing there and has the
number in place of the name. Both make the same frames and closures in step. A frame lies inside if
the name, looked up from it, leads to that one binding, and so code that is evaluated inside has the
name replaced in the second run. Frames that bind the name anew, and all that were there before, lie
outside. A frame that is to bind the name anew lies nowhere until it does.
-/

namespace MiniLisp.Substitution

open MiniLisp.Expr

/-- Whether the name leads to the number from a frame. -/
inductive Side
  | outside
  | inside
deriving DecidableEq

variable (name : String) (constant : Integer)

/-- Names that are looked up and bound on a side: inside, the one that is replaced never is. -/
def Used (side : Side) (key : String) : Prop :=
  side = .inside → key ≠ name

/-- Code that goes together on a side: inside, the second run has the number for the name, and no
definition of the name is about to be made.
-/
inductive Code : Side → Expr → Expr → Prop
  | outside (expr) : Code .outside expr expr
  | inside {expr} (never : NeverDefines name expr)
    : Code .inside expr (substitute name constant expr)

/-- The side on which a procedure's body is evaluated that is made on this one. -/
def inner (parameters : List String) (side : Side) : Side :=
  if name ∈ parameters then .outside else side

/-- Procedures that go together when they are made on a side. -/
structure Procedures (side : Side) (parameters : List String) (body : Expr)
    (parameters' : List String) (body' : Expr)
    : Prop where
  same : parameters = parameters'
  code : Code name constant (inner name parameters side) body body'

/-- Closures that go together: they are made at the same time in the same frame. -/
structure Closures (places : List (Place Side)) (left right : Closure) : Prop where
  id : left.id = right.id
  env : left.env = right.env
  code
    : ∃ side,
        places[left.env]? = some (.settled side)
        ∧ Procedures name constant side left.parameters left.body right.parameters right.body

/-- Where a frame lies that is being filled: on its side, where the names that are still to be bound
are used, or it is about to lie outside and the name that is replaced is among them.
-/
inductive Filled (names : List String) : Place Side → Side → Prop
  | settled {side} (used : ∀ key ∈ names, Used name side key) : Filled names (.settled side) side
  | entering (awaited : name ∈ names) : Filled names (.entering .outside) .outside

/-- Frames that go together while they are filled. -/
structure Fillings (places : List (Place Side)) (left right : Filling) : Prop where
  frame : left.frame = right.frame
  names : left.names = right.names
  code
    : ∃ place side,
        places[left.frame]? = some place
        ∧ Filled name left.names place side
        ∧ Code name constant side left.body right.body

/-- Stores that go together: they have the same frames, which bind the same names to values that go
together, apart from the name that is replaced inside. From inside it leads to the number in the
first run, and no search for it that starts outside gets inside.
-/
structure Stores (places : List (Place Side)) (store other : Store) : Prop
    extends LaidOut places store other where
  locals
    : ∀ {id place},
        places[id]? = some place
        → ∀ key,
            Used name place.side key
            → Option.Rel (Value.Alike (Closures name constant places)) (store.local? id key)
                (other.local? id key)
  outside
    : ∀ {id outer},
        places[id]? = some (.settled .outside)
        → store.outer? id = some outer
        → (store.local? id name).isSome ∨ places[outer]? = some (.settled .outside)
  inside
    : ∀ {id},
        places[id]? = some (.settled .inside)
        → store.local? id name = some (.integer constant)
          ∨ store.local? id name = none
            ∧ ∃ outer, store.outer? id = some outer ∧ places[outer]? = some (.settled .inside)

variable {name constant} {places later : List (Place Side)} {store other : Store}

theorem Closures.mono (grows : Settling places later) {left right : Closure}
    (together : Closures name constant places left right)
    : Closures name constant later left right := by
  obtain ⟨side, found, procedures⟩ := together.code
  exact ⟨together.id, together.env, side, grows.settled found, procedures⟩

theorem Fillings.mono (grows : Settling places later) {left right : Filling}
    (together : Fillings name constant places left right)
    : Fillings name constant later left right := by
  obtain ⟨place, side, found, filled, code⟩ := together.code
  refine ⟨together.frame, together.names, ?_⟩
  rcases grows _ _ found with stayed | settled
  · exact ⟨place, side, stayed, filled, code⟩
  · cases filled with
    | settled used => exact ⟨_, side, settled, .settled used, code⟩
    | entering _ => exact ⟨_, .outside, settled, .settled nofun, code⟩

-----------------------------------------------------------------------------------------
-- Lookup
-----------------------------------------------------------------------------------------

section Lookup

variable (stores : Stores name constant places store other)

include stores

/-- From inside, the name leads to the number in the first run, by induction on the frame's place. -/
theorem Stores.lookup_inside {id : FrameId} (found : places[id]? = some (.settled .inside))
    : store.lookup? id name = some (.integer constant) := by
  induction id using Nat.strongRecOn with
  | ind id ih =>
      rw [Store.lookup?_eq]
      rcases stores.inside found with here | ⟨absent, outer, further, found'⟩
      · rw [here, Option.some_or]
      · rw [absent, further, Option.none_or, Option.bind_some]
        exact ih outer (Store.outer?_lt further) found'

/-- A search that is not yet over goes on with a name that is used where it goes on. -/
theorem Stores.used_further {id outer : FrameId} {side : Side}
    (found : places[id]? = some (.settled side)) {key : String} (used : Used name side key)
    (absent : store.local? id key = none) (further : store.outer? id = some outer)
    : ∃ side', places[outer]? = some (.settled side') ∧ Used name side' key := by
  by_cases same : key = name
  · subst same
    cases side with
    | outside =>
        have bound := stores.outside found further
        rw [absent] at bound
        exact ⟨.outside, bound.resolve_left nofun, nofun⟩
    | inside => exact absurd rfl (used rfl)
  · obtain ⟨side', around⟩ := stores.around found further
    exact ⟨side', around, fun _ => same⟩

/-- Other names mean things that go together, by induction on the frame's place. -/
theorem Stores.lookup {id : FrameId} {side : Side} (found : places[id]? = some (.settled side))
    {key : String} (used : Used name side key)
    : Option.Rel (Value.Alike (Closures name constant places)) (store.lookup? id key)
        (other.lookup? id key) := by
  induction id using Nat.strongRecOn generalizing side with
  | ind id ih =>
      rw [Store.lookup?_eq, Store.lookup?_eq, ← stores.outer found]
      have here := stores.locals found key used
      generalize absent : store.local? id key = value at here ⊢
      generalize other.local? id key = value' at here ⊢
      cases here with
      | some together => exact .some together
      | none =>
          cases further : store.outer? id with
          | none => exact .none
          | some outer =>
              obtain ⟨side', found', used'⟩ := stores.used_further found used absent further
              exact ih outer (Store.outer?_lt further) found' used'

end Lookup

-----------------------------------------------------------------------------------------
-- What the store's operations keep
-----------------------------------------------------------------------------------------

section Keeping

variable (stores : Stores name constant places store other)

include stores

/-- Binding a name that is used on the side of the frame. -/
theorem Stores.bind {env : FrameId} {place : Place Side} (found : places[env]? = some place)
    {key : String} (used : Used name place.side key) {value value' : Value}
    (together : Value.Alike (Closures name constant places) value value')
    : Stores name constant places (store.bind env key value) (other.bind env key value') where
  toLaidOut := (stores.toLaidOut.bindFirst env key value).bindSecond env key value'
  locals := by
    intro id place' found' key' used'
    obtain ⟨present, present'⟩ := stores.present found'
    rw [Store.local?_bind, Store.local?_bind]
    simp only [Store.isSome_frame?, present, present', and_true]
    split
    · exact .some together
    · exact stores.locals found' key' used'
  outside := by
    intro id outer found' further
    rw [Store.outer?_bind] at further
    rw [Store.local?_bind]
    refine (stores.outside found' further).imp_left fun bound => ?_
    split
    · rfl
    · exact bound
  inside := by
    intro id found'
    rw [Store.outer?_bind, Store.local?_bind, if_neg]
    · exact stores.inside found'
    · rintro ⟨rfl, same, _⟩
      obtain rfl := Option.some.inj (found.symm.trans found')
      exact used rfl same

theorem Stores.makeClosure
    : Stores name constant places { store with closures := store.closures + 1 }
        { other with closures := other.closures + 1 } :=
  ⟨stores.toLaidOut.makeClosure, stores.locals, stores.outside, stores.inside⟩

/-- A new frame lies on the side of the frame around it, or is yet to come to lie somewhere. -/
theorem Stores.spawn {env : FrameId} {side : Side} (found : places[env]? = some (.settled side))
    {made : Place Side} (entered : ∀ inner, made = .settled inner → inner = side)
    : Stores name constant (places ++ [made]) (store.spawn env).2 (other.spawn env).2 := by
  have grows : places <+: places ++ [made] := List.prefix_append _ _
  obtain ⟨outer, _⟩ := stores.outer?_spawn_last found
  have locals (key : String) := stores.local?_spawn_last env key
  refine ⟨stores.toLaidOut.spawn found made, ?locals, ?outside, ?inside⟩
  case locals =>
    intro id place found' key used
    rcases getElem?_concat_cases found' with earlier | ⟨rfl, _⟩
    · obtain ⟨old, old'⟩ := stores.present earlier
      rw [Store.local?_spawn_of_lt old, Store.local?_spawn_of_lt old']
      exact (stores.locals earlier key used).imp fun _ _ => .imp fun _ _ =>
        Closures.mono (settling_append places _)
    · rw [(locals key).1, (locals key).2]
      exact .none
  case outside =>
    intro id further found' within
    rcases getElem?_concat_cases found' with earlier | ⟨rfl, same⟩
    · obtain ⟨old, _⟩ := stores.present earlier
      rw [Store.outer?_spawn_of_lt old] at within
      rw [Store.local?_spawn_of_lt old]
      exact (stores.outside earlier within).imp_right (getElem?_of_extends grows)
    · obtain rfl := Option.some.inj (outer.symm.trans within)
      obtain rfl := entered _ same.symm
      exact .inr (getElem?_of_extends grows found)
  case inside =>
    intro id found'
    rcases getElem?_concat_cases found' with earlier | ⟨rfl, same⟩
    · obtain ⟨old, _⟩ := stores.present earlier
      rw [Store.outer?_spawn_of_lt old, Store.local?_spawn_of_lt old]
      rcases stores.inside earlier with bound | ⟨absent, further, within, around⟩
      · exact .inl bound
      · exact .inr ⟨absent, further, within, getElem?_of_extends grows around⟩
    · obtain rfl := entered _ same.symm
      exact .inr ⟨(locals name).1, env, outer, getElem?_of_extends grows found⟩

/-- A frame for a procedure's body is made on its side, or is to come to lie outside when it binds
the name that is replaced.
-/
theorem Stores.spawnFor {env : FrameId} {side : Side} (found : places[env]? = some (.settled side))
    {parameters parameters' : List String} {body body' : Expr}
    (procedures : Procedures name constant side parameters body parameters' body')
    : ∃ made,
        Stores name constant (places ++ [made]) (store.spawn env).2 (other.spawn env).2
        ∧ Fillings name constant (places ++ [made]) ⟨parameters, body, (store.spawn env).1⟩
            ⟨parameters', body', (other.spawn env).1⟩ := by
  obtain ⟨same, code⟩ := procedures
  have frame := stores.fst_spawn_eq env
  have last := stores.getElem?_spawn env
  by_cases enters : side = .inside ∧ name ∈ parameters
  · rw [inner, if_pos enters.2] at code
    exact ⟨.entering .outside, stores.spawn found (by simp), frame, same, _, .outside, last _,
      .entering enters.2, code⟩
  · have stays : inner name parameters side = side := by
      cases side with
      | outside => exact ite_self _
      | inside => exact if_neg fun bound => enters ⟨rfl, bound⟩
    rw [stays] at code
    refine ⟨.settled side, stores.spawn found fun inner same => ?_, frame, same, _, side, last _,
      .settled fun key member isInside => ?_, code⟩
    · exact (Place.settled.inj same).symm
    · rintro rfl
      exact enters ⟨isInside, member⟩

/-- A frame lies outside once it binds the name, and inside once it binds the name to the number in
the first run.
-/
theorem Stores.settle {id : FrameId} {side : Side} (found : places[id]? = some (.entering side))
    (outside : side = .outside → (store.local? id name).isSome)
    (inside : side = .inside → store.local? id name = some (.integer constant))
    : Stores name constant (places.set id (.settled side)) store other := by
  have grows : Settling places (places.set id (.settled side)) := settling_settle found
  refine ⟨stores.toLaidOut.settle found, ?locals, ?outside, ?inside⟩
  case locals =>
    intro other place found' key used
    refine Option.Rel.imp (fun _ _ => .imp fun _ _ => Closures.mono grows) ?_
    rcases getElem?_settle_cases found' with earlier | ⟨rfl, rfl⟩
    · exact stores.locals earlier key used
    · exact stores.locals found key used
  case outside =>
    intro other outer found' further
    rcases getElem?_settle_cases found' with earlier | ⟨rfl, same⟩
    · exact (stores.outside earlier further).imp_right grows.settled
    · exact .inl (outside (Place.settled.inj same).symm)
  case inside =>
    intro other found'
    rcases getElem?_settle_cases found' with earlier | ⟨rfl, same⟩
    · rcases stores.inside earlier with bound | ⟨absent, outer, further, around⟩
      · exact .inl bound
      · exact .inr ⟨absent, outer, further, grows.settled around⟩
    · exact .inl (inside (Place.settled.inj same).symm)

/-- The next of the names that are still to be bound is bound in both runs; if it is the one that is
replaced, the frame comes to lie outside.
-/
theorem Stores.fill {key key' : String} {names names' : List String} {body body' : Expr}
    {frame frame' : FrameId}
    (fillings
      : Fillings name constant places ⟨key :: names, body, frame⟩ ⟨key' :: names', body', frame'⟩)
    {value value' : Value} (together : Value.Alike (Closures name constant places) value value')
    : ∃ later,
        Settling places later
        ∧ Stores name constant later (store.bind frame key value) (other.bind frame' key' value')
        ∧ Fillings name constant later ⟨names, body, frame⟩ ⟨names', body', frame'⟩ := by
  obtain ⟨rfl, same, place, side, found, filled, code⟩ := fillings
  obtain ⟨rfl, rfl⟩ := List.cons.inj same
  cases filled with
  | settled used =>
      obtain ⟨here, used⟩ := List.forall_mem_cons.mp used
      exact ⟨places, refl_of Settling places, stores.bind found here together, rfl, rfl, _, side,
        found, .settled used, code⟩
  | entering awaited =>
      have bound := stores.bind found (nofun : Used name .outside key) together
      by_cases here : key = name
      · subst here
        refine ⟨_, settling_settle found, bound.settle found (fun _ => ?_) nofun, rfl, rfl, _,
          .outside, List.getElem?_set_self (List.getElem?_eq_some_iff.mp found).1, .settled nofun,
          code⟩
        rw [Store.local?_bind, if_pos]
        · rfl
        · exact ⟨rfl, rfl, (Store.isSome_frame? ..).mpr (stores.present found).1⟩
      · have awaited := (List.mem_cons.mp awaited).resolve_left (Ne.symm here)
        exact ⟨places, refl_of Settling places, bound, rfl, rfl, _, .outside, found,
          .entering awaited, code⟩

/-- Only the first run binds the name, in a frame that is about to lie inside. -/
theorem Stores.bindFirst {id : FrameId} (found : places[id]? = some (.entering .inside))
    (value : Value)
    : Stores name constant places (store.bind id name value) other where
  toLaidOut := stores.toLaidOut.bindFirst id name value
  locals := by
    intro id' place found' key used
    rw [Store.local?_bind, if_neg]
    · exact stores.locals found' key used
    · rintro ⟨rfl, same, _⟩
      obtain rfl := Option.some.inj (found.symm.trans found')
      exact used rfl same.symm
  outside := by
    intro id' outer found' further
    rw [Store.outer?_bind] at further
    rw [Store.local?_bind]
    refine (stores.outside found' further).imp_left fun bound => ?_
    split
    · rfl
    · exact bound
  inside := by
    intro id' found'
    rw [Store.outer?_bind, Store.local?_bind, if_neg]
    · exact stores.inside found'
    · rintro ⟨rfl, _, _⟩
      exact nomatch found.symm.trans found'

/-- The frames of the two calls: the first binds the name to the number, the second binds nothing. -/
theorem Stores.bindConstant {env : FrameId} {side : Side}
    (found : places[env]? = some (.settled side))
    : Stores name constant (places ++ [.settled .inside])
        (store.spawnWith env [(name, .integer constant)]).2 (other.spawnWith env []).2 := by
  have made := stores.getElem?_spawn env (.entering .inside)
  have spawned : Stores name constant (places ++ [.entering .inside]) (store.spawn env).2
      (other.spawn env).2 := stores.spawn found (by simp)
  have bound := spawned.bindFirst made (.integer constant)
  have settled := bound.settle made (by simp) fun _ => by
    rw [Store.local?_bind, if_pos]
    exact ⟨rfl, rfl, (Store.isSome_frame? ..).mpr (spawned.present made).1⟩
  have places' : (places ++ [Place.entering Side.inside]).set (store.spawn env).1 (.settled .inside)
      = places ++ [.settled .inside] := by
    rw [Store.spawn, Store.fst_addFrame, stores.size, List.set_append_right _ _ (Nat.le_refl _),
      Nat.sub_self]
    rfl
  rw [places'] at settled
  rw [Store.spawnWith_eq_bindAll, Store.spawnWith_eq_bindAll]
  exact settled

end Keeping

/-- In a sound store everything lies outside, and goes together with itself. -/
theorem stores_outside (sound : store.Sound)
    : Stores name constant (List.replicate store.frames.size (.settled .outside)) store store := by
  have outside {id : FrameId} (present : id < store.frames.size)
      : (List.replicate store.frames.size (Place.settled Side.outside))[id]?
        = some (.settled .outside) := by
    rw [List.getElem?_replicate, if_pos present]
  have present {id : FrameId} {place : Place Side}
      (found : (List.replicate store.frames.size (Place.settled Side.outside))[id]? = some place)
      : id < store.frames.size := by
    have present := (List.getElem?_eq_some_iff.mp found).1
    rwa [List.length_replicate] at present
  refine ⟨⟨(List.length_replicate ..).symm, (List.length_replicate ..).symm, rfl, fun _ => rfl,
    fun found further => ?around⟩, fun _ key _ => ?locals, fun found further => ?outside,
    fun found => ?inside⟩
  case around =>
    exact ⟨.outside, outside (Nat.lt_trans (Store.outer?_lt further) (present found))⟩
  case locals =>
    cases held : store.local? _ key with
    | none => exact .none
    | some value =>
        refine .some (Value.alike_self fun closure same => ?_)
        have made := sound.held held closure same
        have code : Code name constant (inner name closure.parameters .outside) closure.body
            closure.body := by
          unfold inner
          rw [ite_self]
          exact .outside closure.body
        exact ⟨rfl, rfl, .outside, outside made.env, rfl, code⟩
  case outside =>
    exact .inr (outside (Nat.lt_trans (Store.outer?_lt further) (present found)))
  case inside =>
    rw [List.getElem?_replicate] at found
    split at found <;> cases found

end MiniLisp.Substitution
