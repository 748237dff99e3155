import MiniLisp.Proofs.Renaming.Names
import MiniLisp.Proofs.Scope.Places
import MiniLisp.Proofs.Simulation.Rules

/-! Scopes inside a form one of whose bound names is renamed, and scopes outside.
Frames that the renamed form makes lie inside as soon as they bind the old name, and so do all frames
made by code within its body. The two runs make the same frames and closures in step; inside, the
second has the new name wherever the first has the old one. No search that starts inside with the old
name gets out.
-/

namespace MiniLisp.Renaming

open MiniLisp.Expr

/-- Where a frame lies, and with it the code that is evaluated in it. -/
inductive Side
  | outside
  | inside

/-- What becomes of names on one side. -/
def Side.rename (old new : String) : Side → String → String
  | .outside => id
  | .inside => replaceName old new

/-- Names that go together on one side. The new name is not in use inside the first run. -/
inductive Named (old new : String) : Side → String → String → Prop
  | outside (name) : Named old new .outside name name
  | inside {name} (differs : name ≠ new) : Named old new .inside name (replaceName old new name)

/-- Code that goes together on one side: outside, it is the same or has the form renamed. -/
structure Code (old new : String) (side : Side) (expr expr' : Expr) : Prop where
  renamed
    : expr' = mapNames (side.rename old new) expr
      ∨ side = .outside ∧ RenamedForm old new expr expr'
  avoids : Avoids new expr

/-- On which side the body of a procedure is evaluated that is made on this one. -/
inductive Enters (old : String) : Side → List String → Side → Prop
  | same (side parameters) : Enters old side parameters side
  | into {parameters} (bound : old ∈ parameters) : Enters old .outside parameters .inside

/-- Procedures that go together when they are made on one side. -/
def Procedures (old new : String) (side : Side) (parameters : List String) (body : Expr)
    (parameters' : List String) (body' : Expr)
    : Prop :=
  ∃ inner : Side,
    Enters old side parameters inner
    ∧ parameters' = parameters.map (inner.rename old new)
    ∧ Code old new inner body body'
    ∧ new ∉ parameters

/-- Closures that go together: they are made at the same time in the same frame. -/
structure Closures (old new : String) (places : List (Place Side)) (left right : Closure)
    : Prop where
  id : left.id = right.id
  env : left.env = right.env
  code
    : ∃ side,
        places[left.env]? = some (.settled side)
        ∧ Procedures old new side left.parameters left.body right.parameters right.body

/-- Where a frame lies that is being filled: on its side, or it is about to lie inside and the old
name is among those that are still to be bound in it.
-/
inductive Filled (old : String) (names : List String) : Place Side → Side → Prop
  | settled (side) : Filled old names (.settled side) side
  | entering (awaited : old ∈ names) : Filled old names (.entering .inside) .inside

/-- Frames that go together while they are filled. -/
structure Fillings (old new : String) (places : List (Place Side)) (left right : Filling)
    : Prop where
  frame : left.frame = right.frame
  absent : new ∉ left.names
  code
    : ∃ place side,
        places[left.frame]? = some place
        ∧ Filled old left.names place side
        ∧ right.names = left.names.map (side.rename old new)
        ∧ Code old new side left.body right.body

/-- Stores that go together: they have the same frames, which bind names that go together. Around an
outside frame are outside ones, and an inside frame that does not bind the old name lies inside
another.
-/
structure Stores (old new : String) (places : List (Place Side)) (store other : Store)
    : Prop
    extends LaidOut places store other where
  locals
    : ∀ {id place name name'},
        places[id]? = some place
        → Named old new place.side name name'
        → Option.Rel (Value.Alike (Closures old new places)) (store.local? id name)
            (other.local? id name')
  outside
    : ∀ {id outer},
        places[id]? = some (.settled .outside)
        → store.outer? id = some outer
        → places[outer]? = some (.settled .outside)
  inside
    : ∀ {id},
        places[id]? = some (.settled .inside)
        → (store.local? id old).isSome
          ∨ ∃ outer, store.outer? id = some outer ∧ places[outer]? = some (.settled .inside)

variable {old new : String} {places later : List (Place Side)} {store other : Store}

theorem named_of_ne {name : String} (differs : name ≠ new) (side : Side)
    : Named old new side name (side.rename old new name) := by
  cases side with
  | outside => exact .outside name
  | inside => exact .inside differs

/-- Names that go together are told apart from others that do on both sides alike. -/
theorem Named.eq_iff {side : Side} {name name' key key' : String}
    (named : Named old new side name name') (named' : Named old new side key key')
    : name = key ↔ name' = key' := by
  cases named with
  | outside name =>
      cases named' with
      | outside key => exact Iff.rfl
  | inside differs =>
      cases named' with
      | inside differs' => exact replaceName_inj differs differs'

theorem Closures.mono (grows : Settling places later) {left right : Closure}
    (together : Closures old new places left right)
    : Closures old new later left right := by
  obtain ⟨side, found, procedures⟩ := together.code
  exact ⟨together.id, together.env, side, grows.settled found, procedures⟩

theorem Fillings.mono (grows : Settling places later) {left right : Filling}
    (together : Fillings old new places left right)
    : Fillings old new later left right := by
  obtain ⟨place, side, found, filled, code⟩ := together.code
  refine ⟨together.frame, together.absent, ?_⟩
  rcases grows _ _ found with stayed | settled
  · exact ⟨place, side, stayed, filled, code⟩
  · cases filled with
    | settled side => exact ⟨_, side, settled, .settled side, code⟩
    | entering _ => exact ⟨_, .inside, settled, .settled .inside, code⟩

-----------------------------------------------------------------------------------------
-- Lookup
-----------------------------------------------------------------------------------------

section Lookup

variable (stores : Stores old new places store other)

include stores

/-- A name not found in a frame is the same in both runs, or the search for it stays inside. -/
theorem Stores.further {id : FrameId} {side : Side} (found : places[id]? = some (.settled side))
    {name name' : String} (named : Named old new side name name')
    (absent : store.local? id name = none)
    : name = name'
      ∨ ∃ outer, store.outer? id = some outer ∧ places[outer]? = some (.settled side) := by
  cases named with
  | outside name => exact .inl rfl
  | inside differs =>
      rcases stores.inside found with bound | further
      · refine .inl (replaceName_of_ne ?_).symm
        rintro rfl
        rw [absent] at bound
        cases bound
      · exact .inr further

/-- The search goes on with names that go together on the side where it goes on. -/
theorem Stores.onward {id : FrameId} {side : Side} (found : places[id]? = some (.settled side))
    {name name' : String} (named : Named old new side name name')
    (absent : store.local? id name = none) {outer : FrameId}
    (further : store.outer? id = some outer)
    : ∃ side', places[outer]? = some (.settled side') ∧ Named old new side' name name' := by
  rcases stores.further found named absent with rfl | ⟨_, further', found'⟩
  · cases side with
    | outside => exact ⟨.outside, stores.outside found further, .outside name⟩
    | inside =>
        obtain ⟨side', found'⟩ := stores.around found further
        cases side' with
        | outside => exact ⟨.outside, found', .outside name⟩
        | inside => exact ⟨.inside, found', named⟩
  · obtain rfl := Option.some.inj (further.symm.trans further')
    exact ⟨side, found', named⟩

/-- Names that go together mean things that go together, and without a meaning they are the same, by
induction on the frame's place.
-/
theorem Stores.lookup {id : FrameId} {side : Side} (found : places[id]? = some (.settled side))
    {name name' : String} (named : Named old new side name name')
    : Option.Rel (Value.Alike (Closures old new places)) (store.lookup? id name)
          (other.lookup? id name')
      ∧ (store.lookup? id name = none → name = name') := by
  induction id using Nat.strongRecOn generalizing side with
  | ind id ih =>
      rw [Store.lookup?_eq, Store.lookup?_eq, ← stores.outer found]
      have here := stores.locals found named
      generalize absent : store.local? id name = value at here ⊢
      generalize other.local? id name' = value' at here ⊢
      cases here with
      | some together => exact ⟨.some together, fun none => nomatch none⟩
      | none =>
          cases further : store.outer? id with
          | none =>
              refine ⟨.none, fun _ => ?_⟩
              rcases stores.further found named absent with same | ⟨_, further', _⟩
              · exact same
              · exact nomatch further.symm.trans further'
          | some outer =>
              obtain ⟨side', found', named'⟩ := stores.onward found named absent further
              exact ih outer (Store.outer?_lt further) found' named'

end Lookup

-----------------------------------------------------------------------------------------
-- What the store's operations keep
-----------------------------------------------------------------------------------------

section Keeping

variable (stores : Stores old new places store other)

include stores

/-- Binding names that go together in one frame. -/
theorem Stores.bind {env : FrameId} {place : Place Side} (found : places[env]? = some place)
    {name name' : String} (named : Named old new place.side name name') {value value' : Value}
    (together : Value.Alike (Closures old new places) value value')
    : Stores old new places (store.bind env name value) (other.bind env name' value') where
  toLaidOut := (stores.toLaidOut.bindFirst env name value).bindSecond env name' value'
  locals := by
    intro id place' key key' found' named'
    obtain ⟨present, present'⟩ := stores.present found'
    rw [Store.local?_bind, Store.local?_bind]
    simp only [Store.isSome_frame?, present, present', and_true]
    by_cases same : env = id
    · subst same
      obtain rfl := Option.some.inj (found.symm.trans found')
      simp only [true_and, named.eq_iff named']
      split
      · exact .some together
      · exact stores.locals found' named'
    · simp only [same, false_and, if_false]
      exact stores.locals found' named'
  outside := by
    intro id outer found further
    rw [Store.outer?_bind] at further
    exact stores.outside found further
  inside := by
    intro id found
    rw [Store.outer?_bind, Store.local?_bind]
    refine (stores.inside found).imp_left fun bound => ?_
    split
    · rfl
    · exact bound

theorem Stores.makeClosure
    : Stores old new places { store with closures := store.closures + 1 }
        { other with closures := other.closures + 1 } :=
  ⟨stores.toLaidOut.makeClosure, stores.locals, stores.outside, stores.inside⟩

/-- A new frame lies on the side of the frame around it, or is yet to come to lie somewhere. -/
theorem Stores.spawn {env : FrameId} {side : Side} (found : places[env]? = some (.settled side))
    {made : Place Side} (entered : ∀ inner, made = .settled inner → inner = side)
    : Stores old new (places ++ [made]) (store.spawn env).2 (other.spawn env).2 := by
  have grows : places <+: places ++ [made] := List.prefix_append _ _
  obtain ⟨outer, _⟩ := stores.outer?_spawn_last found
  refine ⟨stores.toLaidOut.spawn found made, ?locals, ?outside, ?inside⟩
  case locals =>
    intro id place name name' found' named
    rcases getElem?_concat_cases found' with earlier | ⟨rfl, _⟩
    · obtain ⟨old, old'⟩ := stores.present earlier
      rw [Store.local?_spawn_of_lt old, Store.local?_spawn_of_lt old']
      exact (stores.locals earlier named).imp fun _ _ => .imp fun _ _ =>
        Closures.mono (settling_append places _)
    · rw [(stores.local?_spawn_last env name).1, (stores.local?_spawn_last env name').2]
      exact .none
  case outside =>
    intro id further found' within
    rcases getElem?_concat_cases found' with earlier | ⟨rfl, same⟩
    · rw [Store.outer?_spawn_of_lt (stores.present earlier).1] at within
      exact getElem?_of_extends grows (stores.outside earlier within)
    · obtain rfl := Option.some.inj (outer.symm.trans within)
      obtain rfl := entered _ same.symm
      exact getElem?_of_extends grows found
  case inside =>
    intro id found'
    rcases getElem?_concat_cases found' with earlier | ⟨rfl, same⟩
    · obtain ⟨old, _⟩ := stores.present earlier
      rw [Store.outer?_spawn_of_lt old, Store.local?_spawn_of_lt old]
      rcases stores.inside earlier with bound | ⟨further, within, around⟩
      · exact .inl bound
      · exact .inr ⟨further, within, getElem?_of_extends grows around⟩
    · obtain rfl := entered _ same.symm
      exact .inr ⟨env, outer, getElem?_of_extends grows found⟩

/-- A frame for a procedure's body is made on its side, or is to come to lie there when it binds the
old name.
-/
theorem Stores.spawnFor {env : FrameId} {side : Side} (found : places[env]? = some (.settled side))
    {parameters parameters' : List String} {body body' : Expr}
    (procedures : Procedures old new side parameters body parameters' body')
    : ∃ made,
        Stores old new (places ++ [made]) (store.spawn env).2 (other.spawn env).2
        ∧ Fillings old new (places ++ [made]) ⟨parameters, body, (store.spawn env).1⟩
            ⟨parameters', body', (other.spawn env).1⟩ := by
  obtain ⟨inner, enters, names, code, absent⟩ := procedures
  have frame := stores.fst_spawn_eq env
  have last := stores.getElem?_spawn env
  cases enters with
  | same side parameters =>
      refine ⟨.settled side, stores.spawn found fun inner same => ?_, frame, absent, _, side, last _,
        .settled side, names, code⟩
      exact (Place.settled.inj same).symm
  | into bound =>
      exact ⟨.entering .inside, stores.spawn found (by simp), frame, absent, _, .inside, last _,
        .entering bound, names, code⟩

/-- A frame lies inside once it binds the old name, so that no search for that goes on. -/
theorem Stores.settle {id : FrameId} (found : places[id]? = some (.entering .inside))
    (bound : (store.local? id old).isSome)
    : Stores old new (places.set id (.settled .inside)) store other := by
  have grows : Settling places (places.set id (.settled .inside)) := settling_settle found
  refine ⟨stores.toLaidOut.settle found, ?locals, ?outside, ?inside⟩
  case locals =>
    intro other place name name' found' named
    refine Option.Rel.imp (fun _ _ => .imp fun _ _ => Closures.mono grows) ?_
    rcases getElem?_settle_cases found' with earlier | ⟨rfl, rfl⟩
    · exact stores.locals earlier named
    · exact stores.locals found named
  case outside =>
    intro other outer found' further
    rcases getElem?_settle_cases found' with earlier | ⟨_, same⟩
    · exact grows.settled (stores.outside earlier further)
    · cases same
  case inside =>
    intro other found'
    rcases getElem?_settle_cases found' with earlier | ⟨rfl, _⟩
    · refine (stores.inside earlier).imp_right fun ⟨outer, further, around⟩ => ?_
      exact ⟨outer, further, grows.settled around⟩
    · exact .inl bound

/-- The next of the names that are still to be bound is bound in both runs; if it is the old one, the
frame comes to lie inside.
-/
theorem Stores.fill {name name' : String} {names names' : List String} {body body' : Expr}
    {frame frame' : FrameId}
    (fillings
      : Fillings old new places ⟨name :: names, body, frame⟩ ⟨name' :: names', body', frame'⟩)
    {value value' : Value} (together : Value.Alike (Closures old new places) value value')
    : ∃ later,
        Settling places later
        ∧ Stores old new later (store.bind frame name value) (other.bind frame' name' value')
        ∧ Fillings old new later ⟨names, body, frame⟩ ⟨names', body', frame'⟩ := by
  obtain ⟨rfl, absent, place, side, found, filled, same, code⟩ := fillings
  obtain ⟨rfl, rfl⟩ := List.cons.inj same
  obtain ⟨differs, absent⟩ := List.ne_and_not_mem_of_not_mem_cons absent
  have named : Named old new side name (side.rename old new name) := named_of_ne differs.symm side
  cases filled with
  | settled side =>
      exact ⟨places, refl_of Settling places, stores.bind found named together, rfl, absent, _, side,
        found, .settled side, rfl, code⟩
  | entering awaited =>
      have bound := stores.bind found named together
      by_cases here : name = old
      · subst here
        refine ⟨_, settling_settle found, bound.settle found ?_, rfl, absent, _, .inside,
          List.getElem?_set_self (List.getElem?_eq_some_iff.mp found).1, .settled .inside, rfl,
          code⟩
        rw [Store.local?_bind, if_pos]
        · rfl
        · exact ⟨rfl, rfl, (Store.isSome_frame? ..).mpr (stores.present found).1⟩
      · have awaited := (List.mem_cons.mp awaited).resolve_left (Ne.symm here)
        exact ⟨places, refl_of Settling places, bound, rfl, absent, _, .inside, found,
          .entering awaited, rfl, code⟩

end Keeping

end MiniLisp.Renaming
