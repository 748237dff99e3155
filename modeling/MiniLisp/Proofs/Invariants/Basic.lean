import MiniLisp.Proofs.Scope.SoundRuns

/-! Invariants of evaluation: what holds of stores, frames, closures and code, and stays so.
An evaluation obeys an invariant if it finishes in a store where the invariant holds, with a result
of which it holds or with an error that tells the truth about that store, or is nested too deep. No
evaluation that obeys an invariant breaks a promise between parts of the evaluator.
-/

namespace MiniLisp

variable {Result Next : Type}

/-- The value is no closure that this does not hold of. -/
def Value.IfClosure (holds : Closure → Prop) (value : Value) : Prop :=
  ∀ closure, value = .closure closure → holds closure

/-- The expression that a complaint about a special form is about. -/
def Malformed.expr : Malformed → Expr
  | defineTarget found | parameterList found | parameter found | bindingList found
  | binding found => found

/-- The complaint is right about the expression. -/
def Malformed.Justified : Malformed → Prop
  | defineTarget found =>
      (∀ name, found ≠ .symbol name) ∧ ∀ name rest, found ≠ .list (.symbol name :: rest)
  | parameterList found | bindingList found => ∀ items, found ≠ .list items
  | parameter found => ∀ name, found ≠ .symbol name
  | binding found => ∀ name expr, found ≠ .list [.symbol name, expr]

namespace EvalError

/-- The expressions that an error is about. -/
def exprs : EvalError → List Expr
  | .emptyForm found => [found]
  | .malformed what => [what.expr]
  | _ => []

/-- The error is right about what it names, in this store with these frames. -/
def Justified (frames : FrameId → Prop) (store : Store) : EvalError → Prop
  | .undefinedName name => ∃ env, frames env ∧ store.lookup? env name = none
  | .arityMismatch mismatch => ¬ mismatch.expected.Admits mismatch.got
  | .notAProcedure found =>
      (∀ closure, found ≠ .closure closure) ∧ ∀ primitive, found ≠ .primitive primitive
  | .emptyForm found => found = .list []
  | .malformed what => what.Justified
  | .notAnInteger found => ∀ number, found ≠ .integer number
  | .overflow primitive => primitive.name ∈ ["+", "-", "*"]

end EvalError

/-- Facts that looking up, binding, making closures and making new frames keep. -/
structure Invariant where
  Grows : Store → Store → Prop
  stores : Store → Prop
  frames : Store → FrameId → Prop
  closures : Store → Closure → Prop
  code : Expr → Prop
  preorder : IsPreorder Store Grows
  frames_mono : ∀ {store later env}, Grows store later → frames store env → frames later env
  closures_mono
    : ∀ {store later closure}, Grows store later → closures store closure → closures later closure
  code_item : ∀ {items item}, code (.list items) → item ∈ items → code item
  code_of_closure
    : ∀ {store closure},
        closures store closure → frames store closure.env ∧ code closure.body
  held
    : ∀ {store id name value},
        stores store → store.local? id name = some value → value.IfClosure (closures store)
  bind
    : ∀ {store env name value},
        stores store
        → frames store env
        → value.IfClosure (closures store)
        → Grows store (store.bind env name value) ∧ stores (store.bind env name value)
  make
    : ∀ {store env parameters body},
        stores store
        → frames store env
        → (∀ name ∈ parameters, code (.symbol name))
        → code body
        → Grows store (store.makeClosure parameters body env).2
          ∧ stores (store.makeClosure parameters body env).2
          ∧ closures (store.makeClosure parameters body env).2
              (store.makeClosure parameters body env).1
  spawn
    : ∀ {store env},
        stores store
        → frames store env
        → Grows store (store.spawn env).2
          ∧ stores (store.spawn env).2
          ∧ frames (store.spawn env).2 (store.spawn env).1

namespace Invariant

/-- An invariant whose facts do not depend on how stores grow need not say how they do. -/
theorem isPreorder_anything : IsPreorder Store fun _ _ => True where
  refl _ := trivial
  trans _ _ _ _ _ := trivial

instance (I : Invariant) : IsPreorder Store I.Grows :=
  I.preorder

variable {I : Invariant} {store : Store}

/-- The invariant holds of a value in a store. -/
abbrev Values (I : Invariant) (store : Store) : Value → Prop :=
  Value.IfClosure (I.closures store)

/-- The invariant holds of an error in a store: it is right about what it names, which is code and
values that the invariant holds of.
-/
structure Raises (I : Invariant) (store : Store) (error : EvalError) : Prop where
  justified : error.Justified (I.frames store) store
  exprs : ∀ expr ∈ error.exprs, I.code expr
  values : ∀ value ∈ error.values, I.Values store value

/-- What an evaluation that obeys the invariant comes to. -/
inductive Ends (I : Invariant) (before : Store) (results : Store → Result → Prop)
    : Except Abort (Except EvalError Result × Machine) → Prop
  | value {result machine} (grows : I.Grows before machine.store)
    (stores : I.stores machine.store) (holds : results machine.store result)
    : Ends I before results (.ok (.ok result, machine))
  | failure {error machine} (grows : I.Grows before machine.store)
    (stores : I.stores machine.store) (raises : I.Raises machine.store error)
    : Ends I before results (.ok (.error error, machine))
  | tooDeep : Ends I before results (.error .tooDeep)

/-- The evaluation obeys the invariant in every store that this one has grown to. -/
def Obeys (I : Invariant) (store : Store) (results : Store → Result → Prop)
    (evaluation : Eval Result)
    : Prop :=
  ∀ machine,
    I.Grows store machine.store
    → I.stores machine.store
    → I.Ends machine.store results (evaluation.on machine)

/-- Evaluating code in frames obeys the invariant. -/
def ObeysEvaluator (I : Invariant) (evaluate : Evaluator) : Prop :=
  ∀ {store env expr},
    I.frames store env → I.code expr → I.Obeys store I.Values (evaluate expr env)

theorem values_mono {later : Store} (grows : I.Grows store later) {value : Value}
    (holds : I.Values store value)
    : I.Values later value :=
  fun closure same => I.closures_mono grows (holds closure same)

theorem values_lookup? (stores : I.stores store) {env : FrameId} {name : String} {value : Value}
    (found : store.lookup? env name = some value)
    : I.Values store value := by
  obtain ⟨id, _, bound⟩ := List.exists_of_findSome?_eq_some found
  exact I.held stores bound

/-- Names are bound in a frame one after the other, by induction on them. -/
theorem bindAll_keeps (stores : I.stores store) {env : FrameId} (frame : I.frames store env)
    {entries : List (String × Value)} (holds : ∀ entry ∈ entries, I.Values store entry.2)
    : I.Grows store (store.bindAll env entries) ∧ I.stores (store.bindAll env entries) := by
  induction entries generalizing store with
  | nil => exact ⟨refl_of I.Grows store, stores⟩
  | cons entry rest ih =>
      rw [List.forall_mem_cons] at holds
      obtain ⟨grows, stores'⟩ := I.bind stores frame holds.1
      obtain ⟨grows', stores''⟩ := ih stores' (I.frames_mono grows frame) fun entry member =>
        values_mono grows (holds.2 entry member)
      exact ⟨trans_of I.Grows grows grows', stores''⟩

/-- A frame made with bindings is one that the invariant holds of. -/
theorem spawnWith_keeps (stores : I.stores store) {env : FrameId} (frame : I.frames store env)
    {entries : List (String × Value)} (holds : ∀ entry ∈ entries, I.Values store entry.2)
    : I.Grows store (store.spawnWith env entries).2
      ∧ I.stores (store.spawnWith env entries).2
      ∧ I.frames (store.spawnWith env entries).2 (store.spawnWith env entries).1 := by
  obtain ⟨grows, stores', inside⟩ := I.spawn stores frame
  obtain ⟨grows', stores''⟩ := bindAll_keeps stores' inside fun entry member =>
    values_mono grows (holds entry member)
  rw [Store.spawnWith_eq_bindAll]
  exact ⟨trans_of I.Grows grows grows', stores'', I.frames_mono grows' inside⟩

-----------------------------------------------------------------------------------------
-- Rules for each way to build an evaluation
-----------------------------------------------------------------------------------------

section Rules

variable {results : Store → Result → Prop} {results' : Store → Next → Prop}

/-- An evaluation that ends well began before it, and did so in any store before that. -/
theorem Ends.before {earlier : Store} (grows : I.Grows earlier store)
    {ended : Except Abort (Except EvalError Result × Machine)} (ends : I.Ends store results ended)
    : I.Ends earlier results ended := by
  cases ends with
  | value grows' stores holds => exact .value (trans_of I.Grows grows grows') stores holds
  | failure grows' stores raises => exact .failure (trans_of I.Grows grows grows') stores raises
  | tooDeep => exact .tooDeep

theorem Ends.stores {outcome : Except EvalError Result} {machine : Machine}
    (ends : I.Ends store results (.ok (outcome, machine)))
    : I.stores machine.store := by
  cases ends with
  | value _ stores _ => exact stores
  | failure _ stores _ => exact stores

theorem obeys_pure {result : Result}
    (holds : ∀ later, I.Grows store later → results later result)
    : I.Obeys store results (pure result) :=
  fun machine grows stores => .value (refl_of I.Grows _) stores (holds machine.store grows)

theorem obeys_throw {error : EvalError}
    (raises : ∀ later, I.Grows store later → I.Raises later error)
    : I.Obeys store results (throw error) :=
  fun machine grows stores => .failure (refl_of I.Grows _) stores (raises machine.store grows)

theorem obeys_tooDeep : I.Obeys store results (Eval.abort .tooDeep) :=
  fun _ _ _ => .tooDeep

/-- A sequence obeys if its first part does, and what follows does in what that leaves. -/
theorem Obeys.bind {first : Eval Result} {next : Result → Eval Next}
    (obeys : I.Obeys store results first)
    (follows
      : ∀ later result,
          I.Grows store later → results later result → I.Obeys later results' (next result))
    : I.Obeys store results' (first >>= next) := by
  intro machine grows stores
  rw [Eval.on_bind]
  have ends := obeys machine grows stores
  generalize first.on machine = ended at ends
  cases ends with
  | @value result middle grows' stores' holds =>
      exact (follows middle.store result (trans_of I.Grows grows grows') holds middle
        (refl_of I.Grows _) stores').before grows'
  | failure grows' stores' raises => exact .failure grows' stores' raises
  | tooDeep => exact .tooDeep

/-- What is noted down makes no difference. -/
theorem Obeys.emit {evaluation : Eval Result} (obeys : I.Obeys store results evaluation)
    (event : Event)
    : I.Obeys store results (Eval.emit event >>= fun _ => evaluation) := by
  intro machine grows stores
  rw [Eval.on_bind, Eval.on_emit]
  exact obeys { machine with trace := machine.trace.push event } grows stores

theorem obeys_changeStore {change : Store → Result × Store}
    (keeps
      : ∀ before,
          I.Grows store before
          → I.stores before
          → I.Grows before (change before).2
            ∧ I.stores (change before).2
            ∧ results (change before).2 (change before).1)
    : I.Obeys store results (Eval.changeStore change) := by
  intro machine grows stores
  obtain ⟨grows', stores', holds⟩ := keeps machine.store grows stores
  rw [Eval.on_changeStore]
  exact .value grows' stores' holds

theorem Obeys.noteReturn {results : Store → Value → Prop} {evaluation : Eval Value}
    (obeys : I.Obeys store results evaluation)
    : I.Obeys store results (Eval.noteReturn evaluation) := by
  intro machine grows stores
  rw [Eval.on_noteReturn]
  have ends := obeys machine grows stores
  generalize evaluation.on machine = ended at ends
  cases ends with
  | value grows' stores' holds => exact .value grows' stores' holds
  | failure grows' stores' raises => exact .failure grows' stores' raises
  | tooDeep => exact .tooDeep

end Rules

end Invariant

end MiniLisp
