import Mathlib.Logic.Relator
import MiniLisp.Proofs.Scope.Lookup
import MiniLisp.Proofs.Simulation.Rules

/-! Stores that match: what two runs can reach is the same up to a renaming of frames and closures.
Which frames and closures a store holds besides is left open, so runs that make different ones on
the way can still match.
-/

namespace MiniLisp

/-- Which frames, and which identities of closures, of two stores belong together. -/
structure Matching where
  frames : FrameId → FrameId → Prop
  closures : Nat → Nat → Prop

namespace Matching

/-- The other matching holds everything that this one does. -/
structure Extends (m m' : Matching) : Prop where
  frames : ∀ {left right}, m.frames left right → m'.frames left right
  closures : ∀ {left right}, m.closures left right → m'.closures left right

/-- Closures that match: identities and frames belong together, parameters are the same, and bodies
are related.
-/
structure Closures (m : Matching) (code : Expr → Expr → Prop) (left right : Closure) : Prop where
  made : m.closures left.id right.id
  env : m.frames left.env right.env
  parameters : left.parameters = right.parameters
  body : code left.body right.body

/-- Frames that match while they are filled: the same names are still to be bound in them, and the
bodies that they are for are related.
-/
structure Fillings (m : Matching) (code : Expr → Expr → Prop) (left right : Filling) : Prop where
  frame : m.frames left.frame right.frame
  names : left.names = right.names
  body : code left.body right.body

/-- Stores that match: the matching is one to one, and frames that belong together lie in frames
that do and bind the same names to matching values.
-/
structure Stores (m : Matching) (code : Expr → Expr → Prop) (store other : Store) : Prop where
  present
    : ∀ {left right},
        m.frames left right → left < store.frames.size ∧ right < other.frames.size
  made : ∀ {left right}, m.closures left right → left < store.closures ∧ right < other.closures
  framesUnique : Relator.BiUnique m.frames
  closuresUnique : Relator.BiUnique m.closures
  outer
    : ∀ {left right},
        m.frames left right → Option.Rel m.frames (store.outer? left) (other.outer? right)
  locals
    : ∀ {left right},
        m.frames left right
        → ∀ name,
            Option.Rel (Value.Alike (m.Closures code)) (store.local? left name)
              (other.local? right name)

variable {m m' : Matching} {code : Expr → Expr → Prop} {store other : Store}

theorem Closures.mono (grows : m.Extends m') {left right : Closure}
    (together : m.Closures code left right)
    : m'.Closures code left right :=
  ⟨grows.closures together.made, grows.frames together.env, together.parameters, together.body⟩

theorem Fillings.mono (grows : m.Extends m') {left right : Filling}
    (together : m.Fillings code left right)
    : m'.Fillings code left right :=
  ⟨grows.frames together.frame, together.names, together.body⟩

instance : IsPreorder Matching Extends where
  refl _ := ⟨id, id⟩
  trans _ _ _ first second :=
    ⟨fun frames => second.frames (first.frames frames),
      fun closures => second.closures (first.closures closures)⟩

theorem eq_iff_of_biUnique {related : Nat → Nat → Prop} (unique : Relator.BiUnique related)
    {left right left' right' : Nat} (first : related left right) (second : related left' right')
    : left = left' ↔ right = right' :=
  ⟨fun same => unique.2 first (same ▸ second), fun same => unique.1 first (same ▸ second)⟩

/-- A relation with one more pair in it. -/
def adding (related : Nat → Nat → Prop) (left right : Nat) : Nat → Nat → Prop :=
  fun one another => related one another ∨ one = left ∧ another = right

/-- A matching with one more pair of frames. -/
def withFrames (m : Matching) (left right : FrameId) : Matching :=
  ⟨adding m.frames left right, m.closures⟩

/-- A matching with one more pair of closures. -/
def withClosures (m : Matching) (left right : Nat) : Matching :=
  ⟨m.frames, adding m.closures left right⟩

theorem extends_withFrames (m : Matching) (left right : FrameId)
    : m.Extends (m.withFrames left right) :=
  ⟨.inl, id⟩

theorem extends_withClosures (m : Matching) (left right : Nat)
    : m.Extends (m.withClosures left right) :=
  ⟨id, .inl⟩

/-- A one-to-one relation stays so with a pair that nothing belongs to. -/
theorem biUnique_adding_of_ne {related : Nat → Nat → Prop} (unique : Relator.BiUnique related)
    {left right : Nat}
    (new : ∀ {one another}, related one another → one ≠ left ∧ another ≠ right)
    : Relator.BiUnique (adding related left right) := by
  constructor
  · intro one another common first second
    rcases first with first | ⟨rfl, rfl⟩ <;> rcases second with second | ⟨rfl, same⟩
    · exact unique.1 first second
    · exact absurd same (new first).2
    · exact absurd rfl (new second).2
    · rfl
  · intro common one another first second
    rcases first with first | ⟨rfl, rfl⟩ <;> rcases second with second | ⟨same, rfl⟩
    · exact unique.2 first second
    · exact absurd same (new first).1
    · exact absurd rfl (new second).1
    · rfl

/-- A one-to-one relation stays so with a pair of newcomers. -/
theorem biUnique_adding {related : Nat → Nat → Prop} (unique : Relator.BiUnique related)
    {left right : Nat}
    (below : ∀ {one another}, related one another → one < left ∧ another < right)
    : Relator.BiUnique (adding related left right) :=
  biUnique_adding_of_ne unique fun pair => (below pair).imp Nat.ne_of_lt Nat.ne_of_lt

/-- Any two stores match as long as nothing belongs together. -/
theorem stores_nothing (code : Expr → Expr → Prop) (store other : Store)
    : (⟨fun _ _ => False, fun _ _ => False⟩ : Matching).Stores code store other where
  present := False.elim
  made := False.elim
  framesUnique := ⟨fun _ _ _ pair => pair.elim, fun _ _ _ pair => pair.elim⟩
  closuresUnique := ⟨fun _ _ _ pair => pair.elim, fun _ _ _ pair => pair.elim⟩
  outer := False.elim
  locals := False.elim

-----------------------------------------------------------------------------------------
-- What matching stores have in common
-----------------------------------------------------------------------------------------

section Common

variable (stores : m.Stores code store other) {left right : FrameId} (frames : m.frames left right)

include stores frames

/-- A name means matching things in matching frames, by induction on the first one's place. -/
theorem Stores.lookup (name : String)
    : Option.Rel (Value.Alike (m.Closures code)) (store.lookup? left name)
        (other.lookup? right name) := by
  induction left using Nat.strongRecOn generalizing right with
  | ind left ih =>
      rw [Store.lookup?_eq, Store.lookup?_eq]
      have inside := stores.locals frames name
      have outside := stores.outer frames
      generalize store.local? left name = value at inside ⊢
      generalize other.local? right name = value' at inside ⊢
      generalize found : store.outer? left = outer at outside ⊢
      generalize other.outer? right = outer' at outside ⊢
      cases inside with
      | some together => exact .some together
      | none =>
          cases outside with
          | none => exact .none
          | some further => exact ih _ (Store.outer?_lt found) further

/-- Matching frames show the same names. -/
theorem Stores.frameText_eq : store.frameText left = other.frameText right := by
  obtain ⟨present, present'⟩ := stores.present frames
  obtain ⟨frame, found⟩ := Option.isSome_iff_exists.mp ((Store.isSome_frame? _ _).mpr present)
  obtain ⟨frame', found'⟩ := Option.isSome_iff_exists.mp ((Store.isSome_frame? _ _).mpr present')
  have names : frame.bindings.names = frame'.bindings.names := by
    refine Bindings.names_eq_of_get? fun name => ?_
    simpa only [Store.local?, found, found', Option.bind_some]
      using (stores.locals frames name).isSome_eq
  simp only [Store.frameText, found, found', names]

/-- Matching frames lie in matching chains, by induction on the first one's place. -/
theorem Stores.chain : List.Forall₂ m.frames (store.chain left) (other.chain right) := by
  induction left using Nat.strongRecOn generalizing right with
  | ind left ih =>
      obtain ⟨present, present'⟩ := stores.present frames
      rw [Store.chain_eq, Store.chain_eq, if_pos ((Store.isSome_frame? _ _).mpr present),
        if_pos ((Store.isSome_frame? _ _).mpr present')]
      refine .cons frames ?_
      have outside := stores.outer frames
      change List.Forall₂ m.frames ((store.outer? left).elim [] store.chain)
        ((other.outer? right).elim [] other.chain)
      generalize found : store.outer? left = outer at outside ⊢
      generalize other.outer? right = outer' at outside ⊢
      cases outside with
      | none => exact .nil
      | some further => exact ih _ (Store.outer?_lt found) further

/-- Matching frames show the same scope. -/
theorem Stores.scopeText_eq : store.scopeText left = other.scopeText right := by
  have texts
      : (store.chain left).map store.frameText = (other.chain right).map other.frameText := by
    rw [← List.forall₂_eq_eq_eq, List.forall₂_map_left_iff, List.forall₂_map_right_iff]
    exact (stores.chain frames).imp fun _ _ together => stores.frameText_eq together
  rw [Store.scopeText, Store.scopeText, texts]

end Common

-----------------------------------------------------------------------------------------
-- What the store's operations keep
-----------------------------------------------------------------------------------------

section Keeping

variable (stores : m.Stores code store other)

include stores

/-- Binding one name to matching values in matching frames. -/
theorem Stores.bind {env env' : FrameId} (frames : m.frames env env') (name : String)
    {value value' : Value} (together : Value.Alike (m.Closures code) value value')
    : m.Stores code (store.bind env name value) (other.bind env' name value') where
  present := by
    intro left right pair
    rw [Store.size_bind, Store.size_bind]
    exact stores.present pair
  made := stores.made
  framesUnique := stores.framesUnique
  closuresUnique := stores.closuresUnique
  outer := by
    intro left right pair
    rw [Store.outer?_bind, Store.outer?_bind]
    exact stores.outer pair
  locals := by
    intro left right pair key
    obtain ⟨present, present'⟩ := stores.present pair
    have same := eq_iff_of_biUnique stores.framesUnique frames pair
    simp only [Store.local?_bind, Store.isSome_frame?, present, present', same, and_true]
    split
    · exact .some together
    · exact stores.locals pair key

/-- One more closure in the second store, which nothing in the first belongs to. -/
theorem Stores.closureSecond (count : Nat) (grows : other.closures ≤ count)
    : m.Stores code store { other with closures := count } :=
  ⟨stores.present, fun pair => ⟨(stores.made pair).1, (stores.made pair).2.trans_le grows⟩,
    stores.framesUnique, stores.closuresUnique, stores.outer, stores.locals⟩

/-- The second store may grow, and change wherever nothing in the first belongs to it. -/
theorem Stores.changeSecond {after : Store} (size : other.frames.size ≤ after.frames.size)
    (closures : other.closures ≤ after.closures)
    (parents : ∀ {left right}, m.frames left right → after.parent? right = other.parent? right)
    (locals
      : ∀ {left right},
          m.frames left right → ∀ name, after.local? right name = other.local? right name)
    : m.Stores code store after where
  present pair := (stores.present pair).imp_right fun old => Nat.lt_of_lt_of_le old size
  made pair := (stores.made pair).imp_right fun old => Nat.lt_of_lt_of_le old closures
  framesUnique := stores.framesUnique
  closuresUnique := stores.closuresUnique
  outer := by
    intro left right pair
    rw [Store.outer?, Store.outer?, parents pair]
    exact stores.outer pair
  locals := by
    intro left right pair name
    rw [locals pair]
    exact stores.locals pair name

/-- The first store may grow, and change wherever nothing in the second belongs to it. -/
theorem Stores.changeFirst {after : Store} (size : store.frames.size ≤ after.frames.size)
    (closures : store.closures ≤ after.closures)
    (frames : ∀ {left right}, m.frames left right → after.frame? left = store.frame? left)
    : m.Stores code after other where
  present pair := (stores.present pair).imp_left fun old => Nat.lt_of_lt_of_le old size
  made pair := (stores.made pair).imp_left fun old => Nat.lt_of_lt_of_le old closures
  framesUnique := stores.framesUnique
  closuresUnique := stores.closuresUnique
  outer := by
    intro left right pair
    rw [Store.outer?, Store.parent?, frames pair]
    exact stores.outer pair
  locals := by
    intro left right pair name
    rw [Store.local?, frames pair]
    exact stores.locals pair name

/-- A frame of the first store to which nothing belongs yet, and one that is added to the second with
matching contents, belong together from then on.
-/
theorem Stores.adopt {id : FrameId} {frame frame' : Frame} (found : store.frame? id = some frame)
    (unmatched : ∀ right, ¬ m.frames id right)
    (older : ∀ outer, frame.parent = some outer → outer < id)
    (parents : Option.Rel m.frames frame.parent frame'.parent)
    (bindings
      : ∀ name,
          Option.Rel (Value.Alike (m.Closures code)) (frame.bindings.get? name)
            (frame'.bindings.get? name))
    : (m.withFrames id other.frames.size).Stores code store (other.addFrame frame').2 := by
  have grows := m.extends_withFrames id other.frames.size
  refine ⟨?present, stores.made, ?unique, stores.closuresUnique, ?outer, ?locals⟩
  case present =>
    rintro left right (pair | ⟨rfl, rfl⟩)
    · rw [Store.size_addFrame]
      exact (stores.present pair).imp_right Nat.lt_succ_of_lt
    · exact ⟨(Store.isSome_frame? ..).mp (Option.isSome_of_eq_some found), by simp⟩
  case unique =>
    refine biUnique_adding_of_ne stores.framesUnique fun {left right} pair => ⟨?_, ?_⟩
    · rintro rfl
      exact unmatched right pair
    · exact Nat.ne_of_lt (stores.present pair).2
  case outer =>
    rintro left right (pair | ⟨rfl, rfl⟩)
    · rw [Store.outer?_addFrame_of_lt (stores.present pair).2]
      exact (stores.outer pair).imp fun _ _ => .inl
    · rw [Store.outer?, Store.parent?, found, Option.bind_some, Store.outer?_addFrame_new]
      generalize frame.parent = outer at parents older ⊢
      generalize frame'.parent = outer' at parents ⊢
      cases parents with
      | none => exact .none
      | some pair =>
          simp only [Option.filter_some, older _ rfl, (stores.present pair).2, decide_true, if_true]
          exact .some (.inl pair)
  case locals =>
    rintro left right (pair | ⟨rfl, rfl⟩) name
    · rw [Store.local?_addFrame_of_lt (stores.present pair).2]
      exact (stores.locals pair name).imp fun _ _ => .imp fun _ _ => Closures.mono grows
    · rw [Store.local?, found, Option.bind_some, Store.local?_addFrame_new]
      exact (bindings name).imp fun _ _ => .imp fun _ _ => Closures.mono grows

/-- Matching frames added to both stores belong together from then on. -/
theorem Stores.addFrame {frame frame' : Frame}
    (parents : Option.Rel m.frames frame.parent frame'.parent)
    (bindings
      : ∀ name,
          Option.Rel (Value.Alike (m.Closures code)) (frame.bindings.get? name)
            (frame'.bindings.get? name))
    : (m.withFrames store.frames.size other.frames.size).Stores code
        (store.addFrame frame).2 (other.addFrame frame').2 := by
  have added : m.Stores code (store.addFrame frame).2 other :=
    stores.changeFirst (by simp) (Nat.le_refl _) fun pair =>
      Store.frame?_addFrame_of_lt (stores.present pair).1 frame
  refine added.adopt ?found (fun right pair => ?unmatched) (fun outer parent => ?older) parents
    bindings
  case found => rw [Store.frame?_addFrame, if_pos rfl]
  case unmatched => exact Nat.lt_irrefl _ (stores.present pair).1
  case older =>
    obtain ⟨_, _, pair⟩ := parents.exists_right parent
    exact (stores.present pair).1

/-- So do empty frames made inside matching frames. -/
theorem Stores.spawn {env env' : FrameId} (frames : m.frames env env')
    : (m.withFrames store.frames.size other.frames.size).Stores code (store.spawn env).2
        (other.spawn env').2 :=
  stores.addFrame (.some frames) fun _ => .none

/-- Closures made in both stores belong together from then on. -/
theorem Stores.makeClosure
    : (m.withClosures store.closures other.closures).Stores code
        { store with closures := store.closures + 1 }
        { other with closures := other.closures + 1 } := by
  have grows := m.extends_withClosures store.closures other.closures
  refine ⟨stores.present, ?_, stores.framesUnique,
    biUnique_adding stores.closuresUnique stores.made, stores.outer, fun pair name => ?_⟩
  · intro left right joined
    rcases joined with pair | ⟨rfl, rfl⟩
    · exact (stores.made pair).imp Nat.lt_succ_of_lt Nat.lt_succ_of_lt
    · exact ⟨Nat.lt_succ_self _, Nat.lt_succ_self _⟩
  · exact (stores.locals pair name).imp fun _ _ => .imp fun _ _ => Closures.mono grows

end Keeping

/-- The correspondence of runs whose stores match, with code that is related wherever it is kept in
closures. Names and parameters are the same in both runs.
-/
def simulation (code : Expr → Expr → Prop) (malformed : Malformed → Malformed → Prop)
    (firstMayStop secondMayStop : Prop)
    : Simulation where
  World := Matching
  Extends := Extends
  Mode := Unit
  frames m _ := m.frames
  closures m := m.Closures code
  stores m := m.Stores code
  names _ := Eq
  code _ := code
  procedures _ parameters body parameters' body' := parameters = parameters' ∧ code body body'
  fillings m := m.Fillings code
  malformed := malformed
  firstMayStop := firstMayStop
  secondMayStop := secondMayStop
  preorder := inferInstance
  frames_mono grows := grows.frames
  closures_mono grows := Closures.mono grows
  fillings_mono grows := Fillings.mono grows
  same stores one another := eq_iff_of_biUnique stores.closuresUnique one.made another.made
  code_of_closures together := ⟨(), together.env, together.parameters, together.body⟩
  procedures_length procedures := congrArg List.length procedures.1
  lookup := by
    intro m _ store store' env env' name _ stores frames same
    subst same
    exact ⟨stores.lookup frames name, fun _ => rfl⟩
  bind := by
    intro m _ store store' env env' name _ value value' stores frames same together
    subst same
    exact stores.bind frames name together
  make := by
    intro m _ store store' env env' parameters body _ body' stores frames procedures
    obtain ⟨rfl, related⟩ := procedures
    exact ⟨_, m.extends_withClosures store.closures store'.closures, stores.makeClosure,
      .inr ⟨rfl, rfl⟩, frames, rfl, related⟩
  spawn := by
    intro m _ store store' env env' parameters body _ body' stores frames procedures
    obtain ⟨rfl, related⟩ := procedures
    exact ⟨_, m.extends_withFrames store.frames.size store'.frames.size, stores.spawn frames,
      .inr ⟨rfl, rfl⟩, rfl, related⟩
  fill := by
    intro m store store' name _ names _ body body' frame frame' value value' stores fillings
      together
    obtain ⟨frames, same, related⟩ := fillings
    obtain ⟨rfl, rfl⟩ := List.cons.inj same
    exact ⟨m, refl_of Extends m, stores.bind frames name together, frames, rfl, related⟩
  filled fillings := ⟨(), fillings.frame, fillings.body⟩

end Matching

end MiniLisp
