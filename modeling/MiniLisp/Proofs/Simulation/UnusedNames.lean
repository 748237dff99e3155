import MiniLisp.Proofs.Simulation.Traces

/-! Names that are not used, and stores that differ in what one of these is bound to.
A keyword is not used as a name where it heads a list.
-/

namespace MiniLisp

namespace Expr

/-- The name stands in the expression only as the keyword at the head of lists, if at all. -/
inductive KeywordOnly (name : String) : Expr → Prop
  | symbol {other} (differs : other ≠ name) : KeywordOnly name (.symbol other)
  | number (value) : KeywordOnly name (.number value)
  | list {items} (each : ∀ item ∈ items, KeywordOnly name item) : KeywordOnly name (.list items)
  | headed (kind : SpecialForm) {operands} (each : ∀ operand ∈ operands, KeywordOnly name operand)
    : KeywordOnly name (.list (.symbol kind.keyword :: operands))

namespace KeywordOnly

variable {name : String}

attribute [simp] number

@[simp]
theorem symbol_iff {other : String} : KeywordOnly name (.symbol other) ↔ other ≠ name := by
  constructor
  · intro only
    cases only with
    | symbol differs => exact differs
  · exact .symbol

/-- Behind the head of a list there is no exception. -/
theorem operands {head : Expr} {operands : List Expr}
    (only : KeywordOnly name (.list (head :: operands)))
    : ∀ operand ∈ operands, KeywordOnly name operand := by
  cases only with
  | list each => exact (List.forall_mem_cons.mp each).2
  | headed kind each => exact each

/-- A head that is no keyword is no exception either. -/
theorem items {head : Expr} (applied : SpecialForm.ofHead? head = none) {operands : List Expr}
    (only : KeywordOnly name (.list (head :: operands)))
    : ∀ item ∈ head :: operands, KeywordOnly name item := by
  cases only with
  | list each => exact each
  | headed kind each =>
      rw [SpecialForm.ofHead?_eq_some_iff.mpr rfl] at applied
      cases applied

theorem pair {kind : SpecialForm} {target body : Expr}
    (only : KeywordOnly name (form kind [target, body]))
    : KeywordOnly name target ∧ KeywordOnly name body :=
  (List.forall_mem_cons.mp only.operands).imp_right fun rest => rest body List.mem_cons_self

/-- The expressions of bindings, whatever stands behind these. -/
theorem bound {bounds : List (String × Expr)} {rest : List Expr}
    (only : KeywordOnly name (.list (bindings bounds ++ rest)))
    : ∀ expr ∈ bounds.map (·.2), KeywordOnly name expr := by
  cases bounds with
  | nil => exact nofun
  | cons first others =>
      -- The list is headed by a binding, which is no keyword.
      have each := only.items rfl
      rw [List.forall_mem_map]
      intro bound member
      have listed : binding bound ∈ bindings (first :: others) ++ rest :=
        List.mem_append_left rest (List.mem_map_of_mem member)
      exact (each _ listed).operands _ (List.mem_singleton_self _)

end KeywordOnly

end Expr

namespace Store

/-- The stores are the same but for what the frames bind one name to. -/
structure AlikeBut (name : String) (store other : Store) : Prop where
  frames : store.frames.size = other.frames.size
  closures : store.closures = other.closures
  parents : ∀ id, store.parent? id = other.parent? id
  locals : ∀ id, ∀ key ≠ name, store.local? id key = other.local? id key

/-- The store with the name bound to these values in these frames, one after the other. -/
def rebind (store : Store) (name : String) (changes : List (FrameId × Value)) : Store :=
  changes.foldl (fun store change => store.bind change.1 name change.2) store

end Store

-----------------------------------------------------------------------------------------
-- Stores that differ in one name
-----------------------------------------------------------------------------------------

namespace Unused

/-- One and the same closure, whose body does not use the name. -/
def Closures (name : String) (left right : Closure) : Prop :=
  left = right ∧ left.body.KeywordOnly name

/-- The stores are the same but for what the frames bind the name to, and bind no other name to a
closure whose body uses that one.
-/
structure Stores (name : String) (store other : Store) : Prop where
  frames : store.frames.size = other.frames.size
  closures : store.closures = other.closures
  parents : ∀ id, store.parent? id = other.parent? id
  locals
    : ∀ id, ∀ key ≠ name,
        Option.Rel (Value.Alike (Closures name)) (store.local? id key) (other.local? id key)

theorem eq_of_alike {name : String} {value value' : Value}
    (alike : Value.Alike (Closures name) value value')
    : value = value' :=
  (alike.imp fun _ _ same => same.1).eq

namespace Stores

variable {name : String} {store other : Store} (stores : Stores name store other)

include stores

theorem alikeBut : store.AlikeBut name other where
  frames := stores.frames
  closures := stores.closures
  parents := stores.parents
  locals id key differs := by
    have alike := stores.locals id key differs
    generalize store.local? id key = value at alike ⊢
    generalize other.local? id key = value' at alike ⊢
    cases alike with
    | some together => rw [eq_of_alike together]
    | none => rfl

theorem present (id : FrameId) : (store.frame? id).isSome = (other.frame? id).isSome := by
  rw [Bool.eq_iff_iff, Store.isSome_frame?, Store.isSome_frame?, stores.frames]

/-- Other names mean the same, by induction on the frames around one. -/
theorem lookup (id : FrameId) {key : String} (differs : key ≠ name)
    : Option.Rel (Value.Alike (Closures name)) (store.lookup? id key) (other.lookup? id key) := by
  rw [Store.lookup?, Store.lookup?, Store.chain_congr stores.present stores.parents]
  induction other.chain id with
  | nil => exact .none
  | cons frame rest ih =>
      rw [List.findSome?_cons, List.findSome?_cons]
      have alike := stores.locals frame key differs
      generalize store.local? frame key = value at alike ⊢
      generalize other.local? frame key = value' at alike ⊢
      cases alike with
      | some together => exact .some together
      | none => exact ih

/-- Any name may be bound to the same in both stores. -/
theorem bind (env : FrameId) (key : String) {value value' : Value}
    (together : Value.Alike (Closures name) value value')
    : Stores name (store.bind env key value) (other.bind env key value') where
  frames := by rw [Store.size_bind, Store.size_bind, stores.frames]
  closures := stores.closures
  parents id := by rw [Store.parent?_bind, Store.parent?_bind, stores.parents]
  locals id used differs := by
    rw [Store.local?_bind, Store.local?_bind, stores.present]
    split
    · exact .some together
    · exact stores.locals id used differs

/-- The name itself may be bound to anything in one of them. -/
theorem bindSecond (env : FrameId) (value : Value)
    : Stores name store (other.bind env name value) where
  frames := by rw [Store.size_bind, stores.frames]
  closures := stores.closures
  parents id := by rw [Store.parent?_bind, stores.parents]
  locals id key differs := by
    rw [Store.local?_bind, if_neg fun bound => differs bound.2.1.symm]
    exact stores.locals id key differs

/-- And so any number of times, by induction on the changes. -/
theorem rebindSecond (changes : List (FrameId × Value))
    : Stores name store (other.rebind name changes) := by
  induction changes generalizing other with
  | nil => exact stores
  | cons change rest ih => exact ih (stores.bindSecond change.1 change.2)

theorem makeClosure
    : Stores name { store with closures := store.closures + 1 }
        { other with closures := other.closures + 1 } where
  frames := stores.frames
  closures := congrArg (· + 1) stores.closures
  parents := stores.parents
  locals := stores.locals

theorem addFrame {frame frame' : Frame} (parents : frame.parent = frame'.parent)
    (bindings
      : ∀ key,
          Option.Rel (Value.Alike (Closures name)) (frame.bindings.get? key)
            (frame'.bindings.get? key))
    : Stores name (store.addFrame frame).2 (other.addFrame frame').2 where
  frames := by rw [Store.size_addFrame, Store.size_addFrame, stores.frames]
  closures := stores.closures
  parents id := by
    rw [Store.parent?, Store.parent?, Store.frame?_addFrame, Store.frame?_addFrame, stores.frames]
    split
    · exact parents
    · exact stores.parents id
  locals id key differs := by
    rw [Store.local?, Store.local?, Store.frame?_addFrame, Store.frame?_addFrame, stores.frames]
    split
    · exact bindings key
    · exact stores.locals id key differs

end Stores

end Unused

end MiniLisp
