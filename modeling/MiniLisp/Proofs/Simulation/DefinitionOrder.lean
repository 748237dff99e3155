import MiniLisp.Proofs.Simulation.Silence

/-! Definitions of procedures may come in any order.
Two of them that stand side by side make the same two procedures in either order, with their
identities exchanged. Procedures look names up when they are called, so what runs afterwards cannot
tell the orders apart, and any other order comes about by such exchanges.
-/

namespace MiniLisp

open MiniLisp.Expr Eval Correspondence

/-- The definition of a procedure: its name, its parameters and its body. -/
structure ProcedureDefinition where
  name : String
  parameters : List String
  body : Expr

/-- The definition as a form. -/
def ProcedureDefinition.form (definition : ProcedureDefinition) : Expr :=
  .form .definition
    [.list (.symbol definition.name :: symbols definition.parameters), definition.body]

-----------------------------------------------------------------------------------------
-- What a definition does to a store
-----------------------------------------------------------------------------------------

namespace Store

/-- The closure that a definition makes in a frame. -/
def definedClosure (store : Store) (env : FrameId) (definition : ProcedureDefinition) : Closure :=
  ⟨store.closures, definition.parameters, definition.body, env⟩

/-- The store after a definition in a frame. -/
def afterDefinition (store : Store) (env : FrameId) (definition : ProcedureDefinition) : Store :=
  { store with closures := store.closures + 1 }.bind env definition.name
    (.closure (store.definedClosure env definition))

@[simp]
theorem size_afterDefinition (store : Store) (env : FrameId) (definition : ProcedureDefinition)
    : (store.afterDefinition env definition).frames.size = store.frames.size :=
  size_bind ..

@[simp]
theorem parent?_afterDefinition (store : Store) (env : FrameId) (definition : ProcedureDefinition)
    (id : FrameId)
    : (store.afterDefinition env definition).parent? id = store.parent? id :=
  parent?_bind ..

/-- Bindings of different names may be made in either order, by what each frame then binds. -/
theorem local?_bind_comm {name other : String} (differ : name ≠ other) (store : Store)
    (env : FrameId) (value value' : Value) (id : FrameId) (key : String)
    : ((store.bind env name value).bind env other value').local? id key
      = ((store.bind env other value').bind env name value).local? id key := by
  simp only [local?_bind, isSome_frame?, size_bind]
  by_cases last : other = key
  · have notFirst : name ≠ key := fun same => differ (same.trans last.symm)
    simp [last, notFirst]
  · simp [last]

end Store

/-- A definition succeeds at any depth but none. -/
theorem Eval.on_definition (depth : Nat) (definition : ProcedureDefinition) (env : FrameId)
    (machine : Machine)
    : ∃ trace,
        (evaluate (depth + 1) definition.form env).on machine
        = .ok (.ok .unspecified, ⟨machine.store.afterDefinition env definition, trace⟩) := by
  rw [evaluate, ProcedureDefinition.form, step_form, evalForm_shorthand, makeClosure_symbols]
  exact ⟨_, rfl⟩

/-- Forms behind a definition run in the store that this leaves. -/
theorem Session.runForms_definition (depth : Nat) (text : String) (env : FrameId)
    (definition : ProcedureDefinition) (rest : List Expr) (machine : Machine)
    : ∃ trace,
        (runForms (depth + 1) text env (definition.form :: rest)).run machine
        = ((runForms (depth + 1) text env rest).run
              ⟨machine.store.afterDefinition env definition, trace⟩).bind
            fun ended => .ok (.ok .unspecified :: ended.1, ended.2) := by
  obtain ⟨trace, defined⟩ := on_definition depth definition env machine
  refine ⟨trace, ?_⟩
  rw [runForms_cons, defined]
  rfl

namespace Matching

variable {m : Matching} {code : Expr → Expr → Prop} {store other : Store}

/-- The matching with the next two closures of both stores, crosswise. -/
def withNextCrosswise (m : Matching) (store other : Store) : Matching :=
  (m.withClosures store.closures (other.closures + 1)).withClosures (store.closures + 1)
    other.closures

theorem extends_withNextCrosswise (m : Matching) (store other : Store)
    : m.Extends (m.withNextCrosswise store other) :=
  trans_of Extends (m.extends_withClosures _ _) (extends_withClosures _ _ _)

/-- Two closures made in each store may belong together crosswise from then on. -/
theorem Stores.makeClosuresCrosswise (stores : m.Stores code store other)
    : (m.withNextCrosswise store other).Stores code
        { store with closures := store.closures + 2 }
        { other with closures := other.closures + 2 } := by
  have grows := m.extends_withNextCrosswise store other
  refine ⟨stores.present, ?made, stores.framesUnique, ?unique, stores.outer, fun pair name => ?_⟩
  case made =>
    rintro left right ((pair | ⟨rfl, rfl⟩) | ⟨rfl, rfl⟩)
    · obtain ⟨old, old'⟩ := stores.made pair
      exact ⟨Nat.lt_add_right 2 old, Nat.lt_add_right 2 old'⟩
    · exact ⟨Nat.lt_add_of_pos_right Nat.two_pos, Nat.lt_succ_self _⟩
    · exact ⟨Nat.lt_succ_self _, Nat.lt_add_of_pos_right Nat.two_pos⟩
  case unique =>
    refine biUnique_adding_of_ne (biUnique_adding_of_ne stores.closuresUnique ?_) ?_
    · intro left right pair
      obtain ⟨old, old'⟩ := stores.made pair
      exact ⟨Nat.ne_of_lt old, Nat.ne_of_lt (Nat.lt_succ_of_lt old')⟩
    · rintro left right (pair | ⟨rfl, rfl⟩)
      · obtain ⟨old, old'⟩ := stores.made pair
        exact ⟨Nat.ne_of_lt (Nat.lt_succ_of_lt old), Nat.ne_of_lt old'⟩
      · exact ⟨Nat.ne_of_lt (Nat.lt_succ_self _), Nat.succ_ne_self _⟩
  exact (stores.locals pair name).imp fun _ _ => .imp fun _ _ => Closures.mono grows

/-- Two definitions of different names leave matching stores in either order. -/
theorem Stores.afterDefinitions (stores : m.Stores Eq store other) {env env' : FrameId}
    (frames : m.frames env env') {first second : ProcedureDefinition}
    (differ : first.name ≠ second.name)
    : (m.withNextCrosswise store other).Stores Eq
        ((store.afterDefinition env first).afterDefinition env second)
        ((other.afterDefinition env' second).afterDefinition env' first) := by
  have pair := (m.extends_withNextCrosswise store other).frames frames
  have alike : Value.Alike ((m.withNextCrosswise store other).Closures Eq)
      (.closure (store.definedClosure env first))
      (.closure ((other.afterDefinition env' second).definedClosure env' first)) :=
    .closure ⟨.inl (.inr ⟨rfl, rfl⟩), pair, rfl, rfl⟩
  have alike' : Value.Alike ((m.withNextCrosswise store other).Closures Eq)
      (.closure ((store.afterDefinition env first).definedClosure env second))
      (.closure (other.definedClosure env' second)) :=
    .closure ⟨.inr ⟨rfl, rfl⟩, pair, rfl, rfl⟩
  have both := (stores.makeClosuresCrosswise.bind pair first.name alike).bind pair second.name alike'
  -- The second store gets the bindings in the other order, which shows in none of its frames.
  refine both.changeSecond ?_ (Nat.le_refl _) (fun _ => ?_) fun _ name => ?_
  · simp
  · simp only [Store.parent?_afterDefinition, Store.parent?_bind]
    rfl
  · exact Store.local?_bind_comm differ.symm _ env' _ _ _ name

end Matching

-----------------------------------------------------------------------------------------
-- Runs that take two definitions in either order
-----------------------------------------------------------------------------------------

namespace Matching

open Session

variable {m : Matching} {env env' : FrameId} {machine machine' : Machine}

/-- Two definitions of different names in either order, with the same forms behind them. -/
theorem definitions_together (frames : m.frames env env')
    (stores : m.Stores Eq machine.store machine'.store) {first second : ProcedureDefinition}
    (differ : first.name ≠ second.name) (rest : List Expr) (text text' : String) (depth : Nat)
    : EndTogether False False ((simulation Eq Eq False False).EndAlike m)
        ((runForms depth text env (first.form :: second.form :: rest)).run machine)
        ((runForms depth text' env' (second.form :: first.form :: rest)).run machine') := by
  cases depth with
  | zero =>
      rw [runForms_cons, runForms_cons]
      exact .stopped .tooDeep .tooDeep
  | succ depth =>
      obtain ⟨trace, defined⟩ :=
        runForms_definition depth text env first (second.form :: rest) machine
      obtain ⟨trace', defined'⟩ :=
        runForms_definition depth text' env' second (first.form :: rest) machine'
      obtain ⟨trace₂, both⟩ := runForms_definition depth text env second rest ⟨_, trace⟩
      obtain ⟨trace₂', both'⟩ := runForms_definition depth text' env' first rest ⟨_, trace'⟩
      rw [defined, defined', both, both']
      have grows := m.extends_withNextCrosswise machine.store machine'.store
      have same : List.Forall₂ Eq rest rest := List.forall₂_same.mpr fun _ _ => rfl
      have pair
          : (simulation Eq Eq False False).frames
              (m.withNextCrosswise machine.store machine'.store) () env env' :=
        grows.frames frames
      have rests := Simulation.runForms_together (relatedEvaluators_evaluate (depth + 1)) () pair
        same text text' ⟨_, trace₂⟩ ⟨_, trace₂'⟩ (stores.afterDefinitions frames differ)
      have inner
          : EndTogether False False
              ((simulation Eq Eq False False).EndAlike
                (m.withNextCrosswise machine.store machine'.store)) _ _ :=
        EndTogether.bind rests fun _ _ alike =>
          .finished (Simulation.EndAlike.cons (refl_of Extends _) .unspecified alike)
      exact inner.bind fun _ _ alike =>
        .finished (Simulation.EndAlike.cons grows .unspecified alike)

end Matching

-----------------------------------------------------------------------------------------
-- What is shown does not depend on the order
-----------------------------------------------------------------------------------------

namespace Session

variable {text text' : String} {program program' : List Expr}
  {shown : List (Except String String)} {scope : String}

/-- Programs that end together from matching stores show the same. -/
theorem shows_iff_of_together
    (together
      : ∀ (depth : Nat) {m : Matching} {env env' : FrameId} {machine machine' : Machine},
          m.frames env env'
          → m.Stores Eq machine.store machine'.store
          → EndTogether False False ((Matching.simulation Eq Eq False False).EndAlike m)
              ((runForms depth text env program).run machine)
              ((runForms depth text' env' program').run machine'))
    : Shows text program shown scope ↔ Shows text' program' shown scope := by
  obtain ⟨m, stores, frames⟩ := Matching.stores_fresh Eq
  have finish : FinishTogether _ _ fun outcomes after outcomes' after' =>
      (Matching.simulation Eq Eq False False).EndAlike m (outcomes, after) (outcomes', after') :=
    finishTogether_of_ends fun depth =>
      @together depth m _ _ ⟨_, #[]⟩ ⟨_, #[]⟩ frames stores
  constructor
  · rintro ⟨outcomes, store, ⟨depth, trace, finished⟩, rfl, rfl⟩
    obtain ⟨outcomes', after', ⟨depth', finished'⟩, m', grows, after, results⟩ :=
      finish.follows ⟨depth, finished⟩
    exact ⟨outcomes', after'.store, ⟨depth', after'.trace, finished'⟩,
      (Matching.shown_eq results).symm, (after.scopeText_eq (grows.frames frames)).symm⟩
  · rintro ⟨outcomes', store', ⟨depth', trace', finished'⟩, rfl, rfl⟩
    obtain ⟨outcomes, after, ⟨depth, finished⟩, m', grows, stores', results⟩ :=
      finish.leads ⟨depth', finished'⟩
    exact ⟨outcomes, after.store, ⟨depth, after.trace, finished⟩, Matching.shown_eq results,
      stores'.scopeText_eq (grows.frames frames)⟩

/-- The text that the forms come from does not show. -/
theorem shows_iff_of_text (text text' : String)
    : Shows text program shown scope ↔ Shows text' program shown scope := by
  refine shows_iff_of_together fun depth _ _ _ machine machine' frames stores => ?_
  exact Simulation.runForms_together (Matching.relatedEvaluators_evaluate depth) () frames
    (List.forall₂_same.mpr fun _ _ => rfl) text text' machine machine' stores

/-- Nor does the order of two definitions of different names, whatever is before and behind them. -/
theorem shows_iff_of_swap {first second : ProcedureDefinition} (differ : first.name ≠ second.name)
    (front rest : List Expr)
    : Shows text (front ++ first.form :: second.form :: rest) shown scope
      ↔ Shows text' (front ++ second.form :: first.form :: rest) shown scope := by
  refine shows_iff_of_together fun depth _ _ _ _ _ frames stores => ?_
  refine Simulation.runForms_append_together (Matching.relatedEvaluators_evaluate depth) ()
    (List.forall₂_same.mpr fun _ _ => rfl) (fun frames stores => ?_) frames stores
  exact Matching.definitions_together frames stores differ rest text text' depth

/-- Nor can the order of any number of definitions be observed, as long as their names are different.
Wherever they stand side by side in a program, every other order of them finishes alike, shows the
same values and the same complaints, and leaves the same scope. By induction on how the one order
comes from the other.
-/
theorem definition_order_unobservable {definitions definitions' : List ProcedureDefinition}
    (permuted : definitions.Perm definitions') (distinct : (definitions.map (·.name)).Nodup)
    (front program : List Expr) (text text' : String) (shown : List (Except String String))
    (scope : String)
    : Shows text (front ++ definitions.map (·.form) ++ program) shown scope
      ↔ Shows text' (front ++ definitions'.map (·.form) ++ program) shown scope := by
  induction permuted generalizing front text text' with
  | nil => exact shows_iff_of_text text text'
  | cons definition _ ih =>
      have inner := ih (List.nodup_cons.mp distinct).2 (front ++ [definition.form]) text text'
      simpa using inner
  | swap first second rest =>
      have differ : second.name ≠ first.name := by
        intro same
        exact (List.nodup_cons.mp distinct).1 (List.mem_cons.mpr (.inl same))
      simpa using shows_iff_of_swap differ front (rest.map (·.form) ++ program)
  | trans before _ ih ih' =>
      exact (ih distinct front text text).trans
        (ih' ((before.map _).nodup_iff.mp distinct) front text text')

/-- Two procedures that call each other and a third one that takes the place of `true` may be
defined backwards: `(odd? 1)` is the third one either way.
-/
theorem parity_definitions_in_either_order
    : ∃ (definitions : List ProcedureDefinition) (shown : List (Except String String))
          (scope : String),
        definitions.map (·.name) = ["even?", "odd?", "true"]
        ∧ (definitions.map (·.name)).Nodup
        ∧ shown.getLast? = some (.ok "#<procedure (n)>")
        ∧ Shows ""
            ([] ++ definitions.map (·.form) ++ [.list [.symbol "odd?", .number .one]]) shown scope
        ∧ Shows ""
            ([] ++ definitions.reverse.map (·.form) ++ [.list [.symbol "odd?", .number .one]]) shown
            scope := by
  let recurse (name : String) : Expr :=
    .list [.symbol name, .list [.symbol "-", .symbol "n", .number .one]]
  let test : Expr := .list [.symbol "=", .symbol "n", .number .zero]
  let definitions : List ProcedureDefinition :=
    [⟨"even?", ["n"], form .conditional [test, .symbol "true", recurse "odd?"]⟩,
      ⟨"odd?", ["n"], form .conditional [test, .symbol "false", recurse "even?"]⟩,
      ⟨"true", ["n"], .symbol "n"⟩]
  have distinct : (definitions.map (·.name)).Nodup := by decide
  let program := [] ++ definitions.map (·.form) ++ [.list [.symbol "odd?", .number .one]]
  have seen
      : ((runForms 9 "" (Store.addGlobal ∅).1 program).run ⟨(Store.addGlobal ∅).2, #[]⟩).map
          (fun ended => ended.1.map Outcome.shown)
        = .ok [.ok "", .ok "", .ok "", .ok "#<procedure (n)>"] := by
    decide +kernel
  obtain ⟨⟨outcomes, store, trace⟩, finished, shown⟩ := exists_of_map_eq_ok seen
  have shows : Shows "" program [.ok "", .ok "", .ok "", .ok "#<procedure (n)>"] _ :=
    ⟨outcomes, store, ⟨9, trace, finished⟩, shown, rfl⟩
  exact ⟨definitions, _, _, rfl, distinct, rfl, shows,
    (definition_order_unobservable definitions.reverse_perm.symm distinct [] _ "" "" _ _).mp shows⟩

end Session

end MiniLisp
