import MiniLisp.Proofs.Evaluation.Depth
import MiniLisp.Proofs.Invariants.Safety
import MiniLisp.Proofs.Scope.Persistence
import MiniLisp.Proofs.Sessions.Provenance

/-! Expressions that make no procedures come to an end.
Where no closure is in scope, none comes into it: names mean other values, primitives give other
values, and what is bound was one of these. So no body is ever entered, and evaluation nests no
deeper than the expression itself.
-/

namespace MiniLisp

namespace Expr

mutual

/-- How deep the expression is nested: one level for itself, under which those of its items lie. -/
def nesting : Expr → Nat
  | .symbol _ => 1
  | .number _ => 1
  | .list items => deepest items + 1

/-- How deep the deepest of these is nested. -/
def deepest : List Expr → Nat
  | [] => 0
  | item :: rest => max (nesting item) (deepest rest)

end

theorem nesting_pos (expr : Expr) : 0 < expr.nesting := by
  cases expr with
  | symbol name => exact Nat.one_pos
  | number value => exact Nat.one_pos
  | list items => exact Nat.succ_pos (deepest items)

theorem nesting_le_deepest {items : List Expr} {item : Expr} (member : item ∈ items)
    : item.nesting ≤ deepest items := by
  induction items with
  | nil => cases member
  | cons head rest ih =>
      rw [deepest]
      rcases List.mem_cons.mp member with rfl | among
      · exact Nat.le_max_left _ _
      · exact Nat.le_trans (ih among) (Nat.le_max_right _ _)

/-- A part is nested no deeper than the whole, by induction on the part. -/
theorem Part.nesting_le {part whole : Expr} (inside : part.Part whole)
    : part.nesting ≤ whole.nesting := by
  induction inside with
  | self => exact Nat.le_refl _
  | item among _ ih => exact Nat.le_succ_of_le (Nat.le_trans ih (nesting_le_deepest among))

theorem Part.trans {inner part whole : Expr} (first : inner.Part part) (second : part.Part whole)
    : inner.Part whole := by
  induction second with
  | self => exact first
  | item among _ ih => exact .item among ih

/-- No list in the expression is headed by `lambda`, and no definition in it has a list as its
target.
-/
def Procedureless (expr : Expr) : Prop :=
  ∀ part : Expr,
    part.Part expr
    → (∀ operands, part ≠ form .lambda operands)
      ∧ ∀ signature body, part ≠ form .definition [.list signature, body]

@[simp]
theorem procedureless_symbol (name : String) : (symbol name).Procedureless := by
  intro part inside
  cases inside
  exact ⟨nofun, nofun⟩

@[simp]
theorem procedureless_number (value : Integer) : (number value).Procedureless := by
  intro part inside
  cases inside
  exact ⟨nofun, nofun⟩

/-- A list makes no procedures exactly if it does not itself and its items make none. -/
@[simp]
theorem procedureless_list_iff {items : List Expr}
    : (list items).Procedureless
      ↔ (∀ operands, list items ≠ form .lambda operands)
        ∧ (∀ signature body, list items ≠ form .definition [.list signature, body])
        ∧ ∀ item ∈ items, item.Procedureless := by
  constructor
  · intro whole
    refine ⟨(whole _ .self).1, (whole _ .self).2, fun item among part inside => ?_⟩
    exact whole part (.item among inside)
  · rintro ⟨noLambda, noShorthand, each⟩ part inside
    cases inside with
    | self => exact ⟨noLambda, noShorthand⟩
    | item among within => exact each _ among part within

/-- The expression makes no procedures and is nested at most this deep. -/
structure Shallow (depth : Nat) (expr : Expr) : Prop where
  procedureless : expr.Procedureless
  nesting_le : expr.nesting ≤ depth

variable {depth : Nat}

theorem Shallow.part {part whole : Expr} (shallow : whole.Shallow depth) (inside : part.Part whole)
    : part.Shallow depth :=
  ⟨fun _ within => shallow.procedureless _ (within.trans inside),
    Nat.le_trans inside.nesting_le shallow.nesting_le⟩

/-- Items lie one level deeper. -/
theorem Shallow.item {items : List Expr} {item : Expr} (shallow : (list items).Shallow (depth + 1))
    (member : item ∈ items)
    : item.Shallow depth :=
  ⟨(shallow.part (.item member .self)).procedureless,
    Nat.le_trans (nesting_le_deepest member) (Nat.le_of_succ_le_succ shallow.nesting_le)⟩

end Expr

/-- The value is no closure. -/
def Value.ClosureFree (value : Value) : Prop :=
  ∀ closure, value ≠ .closure closure

/-- What primitives give is no closure, by cases on what they compute. -/
theorem Primitive.Computes.closureFree {primitive : Primitive} {args : List Value} {value : Value}
    (computes : primitive.Computes args (.ok value))
    : value.ClosureFree := by
  cases computes <;> exact nofun

namespace Store

/-- No frame on the chain binds a name to a closure. -/
def ClosureFree (store : Store) (env : FrameId) : Prop :=
  ∀ place ∈ store.chain env,
    ∀ name value, store.local? place name = some value → value.ClosureFree

variable {store : Store} {env : FrameId}

theorem ClosureFree.lookup? (free : store.ClosureFree env) {name : String} {value : Value}
    (found : store.lookup? env name = some value)
    : value.ClosureFree := by
  obtain ⟨place, among, bound⟩ := List.exists_of_findSome?_eq_some found
  exact free place among name value bound

/-- No closure comes into any scope by binding a name to another value. -/
theorem ClosureFree.bind (free : store.ClosureFree env) {value : Value} (given : value.ClosureFree)
    (id : FrameId) (name : String)
    : (store.bind id name value).ClosureFree env := by
  intro place among other found bound
  rw [chain_bind] at among
  rw [local?_bind] at bound
  split at bound
  · exact Option.some.inj bound ▸ given
  · exact free place among other found bound

theorem ClosureFree.addFrame (free : store.ClosureFree env) (present : env < store.frames.size)
    (frame : Frame)
    : (store.addFrame frame).2.ClosureFree env := by
  intro place among name value bound
  rw [chain_addFrame_of_lt present] at among
  rw [local?_addFrame_of_lt (Nat.lt_of_le_of_lt (le_of_mem_chain among) present)] at bound
  exact free place among name value bound

/-- What is in scope of a frame made inside another is in scope of the other. -/
theorem ClosureFree.spawn (free : store.ClosureFree env) (present : env < store.frames.size)
    : (store.spawn env).2.ClosureFree store.frames.size := by
  intro place among name value bound
  rw [chain_spawn_new present] at among
  rcases List.mem_cons.mp among with rfl | outside
  · rw [Store.spawn, local?_addFrame_new, Bindings.get?_empty] at bound
    cases bound
  · have still := free.addFrame present ⟨∅, some env⟩
    rw [ClosureFree, chain_addFrame_of_lt present] at still
    exact still place outside name value bound

/-- A fresh global frame binds booleans and primitives only. -/
theorem closureFree_addGlobal (store : Store)
    : store.addGlobal.2.ClosureFree store.frames.size := by
  intro place among name value bound
  have alone : store.addGlobal.2.chain store.frames.size = [store.frames.size] := by
    rw [chain_eq, ← outer?, addGlobal, outer?_addFrame_new, frame?_addFrame, if_pos rfl]
    rfl
  obtain rfl := List.mem_singleton.mp (alone ▸ among)
  rw [addGlobal, local?_addFrame_new] at bound
  exact ne_closure_of_globals name value bound

/-- The frame is there, and no closure is in scope of it. -/
structure Free (store : Store) (env : FrameId) : Prop where
  present : env < store.frames.size
  closureFree : store.ClosureFree env

/-- What the first store holds is kept, and no closure comes into the scope of any frame that had none
in it.
-/
structure StaysFree (before after : Store) : Prop where
  kept : Kept before after
  free : ∀ {env}, before.Free env → after.Free env

instance : IsPreorder Store StaysFree where
  refl store := ⟨refl_of Kept store, fun free => free⟩
  trans _ _ _ first second :=
    ⟨trans_of Kept first.kept second.kept, fun free => second.free (first.free free)⟩

theorem StaysFree.bind (store : Store) {value : Value} (given : value.ClosureFree) (id : FrameId)
    (name : String)
    : StaysFree store (store.bind id name value) where
  kept := Kept.bind store id name value
  free free :=
    ⟨(store.size_bind id name value).symm ▸ free.present, free.closureFree.bind given id name⟩

theorem StaysFree.spawn (store : Store) (env : FrameId) : StaysFree store (store.spawn env).2 where
  kept := Kept.spawn store env
  free free :=
    ⟨Nat.lt_of_lt_of_le free.present (Kept.spawn store env).frames,
      free.closureFree.addFrame free.present _⟩

theorem Free.spawn (free : store.Free env) : (store.spawn env).2.Free (store.spawn env).1 :=
  ⟨Nat.lt_of_lt_of_eq (Nat.lt_succ_self _) (size_addFrame ..).symm,
    free.closureFree.spawn free.present⟩

end Store

namespace Eval

open MiniLisp.Expr Store

variable {Result Next : Type}

/-- The evaluation finishes wherever no closure is in scope of these frames. None comes into the scope
of any frame, also if the evaluation fails, and this holds of its result.
-/
def Settles (frames : List FrameId) (results : Result → Prop) (evaluation : Eval Result) : Prop :=
  ∀ machine,
    (∀ env ∈ frames, machine.store.Free env)
    → ∃ outcome after,
        evaluation.on machine = .ok (outcome, after)
        ∧ StaysFree machine.store after.store
        ∧ ∀ result, outcome = .ok result → results result

section Rules

variable {env : FrameId} {frames : List FrameId} {results : Result → Prop}

-----------------------------------------------------------------------------------------
-- Ways to build an evaluation
-----------------------------------------------------------------------------------------

theorem settles_pure {result : Result} (holds : results result)
    : Settles frames results (pure result) :=
  fun machine _ =>
    ⟨.ok result, machine, on_pure result machine, refl_of StaysFree _,
      fun _ same => Except.ok.inj same ▸ holds⟩

theorem settles_throw (error : EvalError) : Settles frames results (throw error) :=
  fun machine _ =>
    ⟨.error error, machine, on_throw error machine, refl_of StaysFree _, nofun⟩

theorem Settles.mono {more : List FrameId} {evaluation : Eval Result}
    (settles : Settles frames results evaluation) (subset : frames ⊆ more)
    : Settles more results evaluation :=
  fun machine free => settles machine fun env member => free env (subset member)

theorem Settles.emit {evaluation : Eval Result} (settles : Settles frames results evaluation)
    (event : Event)
    : Settles frames results (Eval.emit event >>= fun _ => evaluation) := by
  intro machine free
  rw [on_bind, on_emit]
  exact settles { machine with trace := machine.trace.push event } free

theorem Settles.bind {first : Eval Result} {next : Result → Eval Next} {results' : Next → Prop}
    (settles : Settles frames results first)
    (follows : ∀ result, results result → Settles frames results' (next result))
    : Settles frames results' (first >>= next) := by
  intro machine free
  obtain ⟨outcome, middle, finished, stays, holds⟩ := settles machine free
  rw [on_bind, finished]
  cases outcome with
  | error error => exact ⟨.error error, middle, rfl, stays, nofun⟩
  | ok result =>
      obtain ⟨outcome, after, finished', stays', holds'⟩ :=
        follows result (holds result rfl) middle fun env member => stays.free (free env member)
      exact ⟨outcome, after, finished', trans_of StaysFree stays stays', holds'⟩

theorem settles_fetch (name : String) : Settles [env] Value.ClosureFree (fetch env name) := by
  intro machine free
  refine ⟨_, machine, on_fetch env name machine, refl_of StaysFree _, ?_⟩
  intro value given
  cases found : machine.store.lookup? env name with
  | none =>
      rw [found] at given
      cases given
  | some meant =>
      rw [found] at given
      exact Except.ok.inj given ▸ (List.forall_mem_singleton.mp free).closureFree.lookup? found

theorem settles_define (name : String) {value : Value} (given : value.ClosureFree)
    : Settles frames (fun _ => True) (define env name value) :=
  fun machine _ =>
    ⟨.ok (), _, on_define env name value machine, .bind machine.store given env name,
      fun _ _ => trivial⟩

theorem settles_bindName (name : String) {value : Value} (given : value.ClosureFree)
    : Settles frames Value.ClosureFree (bindName env name value) :=
  .emit ((settles_define name given).bind fun _ _ => settles_pure nofun) (.define name value)

/-- What settles in this frame and a new one inside it does so after the new one has been made. -/
theorem settles_spawn {next : FrameId → Eval Result}
    (settles : ∀ frame, Settles [env, frame] results (next frame))
    : Settles [env] results (changeStore (·.spawn env) >>= next) := by
  intro machine free
  have here := List.forall_mem_singleton.mp free
  have spawned : StaysFree machine.store (machine.store.spawn env).2 := .spawn machine.store env
  have both : ∀ id ∈ [env, (machine.store.spawn env).1], (machine.store.spawn env).2.Free id := by
    rw [List.forall_mem_cons, List.forall_mem_singleton]
    exact ⟨spawned.free here, here.spawn⟩
  obtain ⟨outcome, after, finished, stays, holds⟩ :=
    settles _ { machine with store := (machine.store.spawn env).2 } both
  rw [on_bind, on_changeStore]
  exact ⟨outcome, after, finished, trans_of StaysFree spawned stays, holds⟩

-----------------------------------------------------------------------------------------
-- The rules of evaluation
-----------------------------------------------------------------------------------------

variable {evaluate : Evaluator}

/-- Each expression gives a value, by induction on them. -/
theorem settles_each {exprs : List Expr}
    (inside : ∀ expr ∈ exprs, Settles [env] Value.ClosureFree (evaluate expr env))
    : Settles [env]
        (fun values => values.length = exprs.length ∧ ∀ value ∈ values, value.ClosureFree)
        (each evaluate env exprs) := by
  induction exprs with
  | nil => exact settles_pure ⟨rfl, List.forall_mem_nil _⟩
  | cons expr rest ih =>
      rw [List.forall_mem_cons] at inside
      refine inside.1.bind fun value given => (ih inside.2).bind fun values others => ?_
      obtain ⟨counted, others⟩ := others
      exact settles_pure ⟨congrArg Nat.succ counted, List.forall_mem_cons.mpr ⟨given, others⟩⟩

/-- The bindings of a `let` are all made, by induction on them. -/
theorem settles_bindEach {frame : FrameId} {bounds : List (String × Expr)}
    (inside : ∀ expr ∈ bounds.map (·.2), Settles [env] Value.ClosureFree (evaluate expr env))
    : Settles [env, frame] (fun _ => True) (bindEach evaluate env frame (bindings bounds)) := by
  induction bounds with
  | nil => exact settles_pure trivial
  | cons bound rest ih =>
      rw [List.map_cons, List.forall_mem_cons] at inside
      rw [bindEach_cons]
      exact (inside.1.mono (by simp)).bind fun value given =>
        (settles_define bound.1 given).bind fun _ _ => ih inside.2

theorem settles_callPrimitive (primitive : Primitive) (args : List Value)
    : Settles frames Value.ClosureFree (callPrimitive primitive args) := by
  by_cases admitted : primitive.arity.Admits args.length
  · obtain ⟨outcome, computed, computes⟩ := Primitive.exists_compute? admitted
    rw [callPrimitive, checkArity, if_pos admitted, pure_bind, computed]
    refine .emit (.emit ?_ _) _
    cases outcome with
    | error error => exact settles_throw error
    | ok value => exact settles_pure computes.closureFree
  · rw [callPrimitive, checkArity, if_neg admitted]
    exact settles_throw _

/-- A call of what is no closure enters no body. -/
theorem settles_apply {callee : Value} (free : callee.ClosureFree) (args : List Value)
    : Settles frames Value.ClosureFree (apply evaluate callee args) := by
  cases callee with
  | primitive primitive => exact settles_callPrimitive primitive args
  | closure closure => exact absurd rfl (free closure)
  | integer _ | bool _ | unspecified => exact settles_throw _

theorem settles_evalApplication {head : Expr} {operands : List Expr}
    (inside : ∀ item ∈ head :: operands, Settles [env] Value.ClosureFree (evaluate item env))
    : Settles [env] Value.ClosureFree (evalApplication evaluate (head :: operands) env) := by
  refine (settles_each inside).bind fun values given => ?_
  obtain ⟨counted, free⟩ := given
  cases values with
  | nil => cases counted
  | cons callee args => exact settles_apply (free callee List.mem_cons_self) args

/-- One level more settles what is nested one level deeper, by the shapes of expressions. -/
theorem settles_step {depth : Nat}
    (settles
      : ∀ {expr : Expr} {frame},
          expr.Shallow depth → Settles [frame] Value.ClosureFree (evaluate expr frame))
    {expr : Expr} (shallow : expr.Shallow (depth + 1))
    : Settles [env] Value.ClosureFree (step evaluate expr env) := by
  cases expr.shape with
  | symbol name => exact .emit (settles_fetch name) _
  | number value => exact .emit (settles_pure nofun) _
  | empty => exact .emit (settles_throw _) _
  | miscounted kind operands refused =>
      rw [step_form, evalForm_miscounted _ _ refused]
      exact .emit (settles_throw _) _
  | conditional test yes no =>
      rw [step_form, evalForm_conditional]
      have operand (expr : Expr) (member : expr ∈ [test, yes, no]) : expr.Shallow depth :=
        shallow.item (List.mem_cons_of_mem _ member)
      refine .emit ((settles (operand test (by simp))).bind fun answer _ => ?_) _
      split
      · exact settles (operand no (by simp))
      · exact settles (operand yes (by simp))
  | define name body =>
      rw [step_form, evalForm_define]
      have value : body.Shallow depth := shallow.item (by simp)
      exact .emit ((settles value).bind fun value given => settles_bindName name given) _
  | shorthand name parameters body =>
      exact absurd rfl ((shallow.procedureless _ .self).2 (.symbol name :: symbols parameters) body)
  | shorthandParameter name parameters found rest body noSymbol =>
      exact absurd rfl ((shallow.procedureless _ .self).2
        (.symbol name :: (symbols parameters ++ found :: rest)) body)
  | defineTarget target body noSymbol noShorthand =>
      rw [step_form, evalForm_defineTarget evaluate env noSymbol noShorthand]
      exact .emit (settles_throw _) _
  | lambda parameters body | lambdaParameter parameters found rest body noSymbol
  | parameterList found body noList =>
      exact absurd rfl ((shallow.procedureless _ .self).1 _)
  | letIn bounds body =>
      rw [step_form, evalForm_letIn]
      have bound {expr : Expr} (member : expr ∈ bounds.map (·.2)) : expr.Shallow depth := by
        obtain ⟨bound, among, rfl⟩ := List.mem_map.mp member
        have items : (list (bindings bounds)).Shallow depth := shallow.item (by simp)
        exact items.part (.item (List.mem_map_of_mem among) (.item (by simp) .self))
      have inner : body.Shallow depth := shallow.item (by simp)
      exact .emit (settles_spawn fun frame =>
        (settles_bindEach fun expr member => settles (bound member)).bind fun _ _ =>
          (settles inner).mono (by simp)) _
  | letBinding bounds found rest body noBinding =>
      rw [step_form, evalForm_letBinding evaluate env bounds noBinding]
      have bound {expr : Expr} (member : expr ∈ bounds.map (·.2)) : expr.Shallow depth := by
        obtain ⟨bound, among, rfl⟩ := List.mem_map.mp member
        have items : (list (bindings bounds ++ found :: rest)).Shallow depth :=
          shallow.item (by simp)
        exact items.part
          (.item (List.mem_append_left _ (List.mem_map_of_mem among)) (.item (by simp) .self))
      exact .emit (settles_spawn fun frame =>
        (settles_bindEach fun expr member => settles (bound member)).bind fun _ _ =>
          settles_throw _) _
  | bindingList found body noList =>
      rw [step_form, evalForm_bindingList evaluate env noList]
      exact .emit (settles_throw _) _
  | application head operands applied =>
      rw [step_application evaluate env applied]
      exact .emit (settles_evalApplication fun item member => settles (shallow.item member)) _

end Rules

theorem settles_evaluate {depth : Nat} {expr : Expr} (shallow : expr.Shallow depth) (env : FrameId)
    : Settles [env] Value.ClosureFree (evaluate depth expr env) := by
  induction depth generalizing expr env with
  | zero => exact absurd shallow.nesting_le (Nat.not_le_of_lt expr.nesting_pos)
  | succ depth ih => exact settles_step (fun inside => ih inside _) shallow

/-- An expression that makes no procedures finishes in every frame that has no closure in scope,
with evaluations nested no deeper than the expression. It has the same outcome at all such depths,
which is an error or a value that is no closure, and leaves the frame with the same chain and still
without a closure in scope.
-/
theorem procedureless_finishes {expr : Expr} (procedureless : expr.Procedureless) {env : FrameId}
    {machine : Machine} (present : env < machine.store.frames.size)
    (free : machine.store.ClosureFree env)
    : ∃ outcome after,
        (∀ depth,
          expr.nesting ≤ depth → (evaluate depth expr env).on machine = .ok (outcome, after))
        ∧ (∀ value, outcome = .ok value → value.ClosureFree)
        ∧ after.store.chain env = machine.store.chain env
        ∧ after.store.ClosureFree env := by
  have shallow : expr.Shallow expr.nesting := ⟨procedureless, Nat.le_refl _⟩
  have here : machine.store.Free env := ⟨present, free⟩
  obtain ⟨outcome, after, finished, stays, given⟩ :=
    settles_evaluate shallow env machine (List.forall_mem_singleton.mpr here)
  refine ⟨outcome, after, fun depth deep => ?_, given, stays.kept.chain present,
    (stays.free here).closureFree⟩
  exact within_evaluate deep expr env machine _ finished

/-- Names stand for closures in a frame inside the global one, which are out of scope in the global
one. There a `let` whose value is a definition and whose body calls that value finishes, with
evaluations nested five deep.
-/
theorem let_of_definition_finishes
    : ∃ outcome after,
        (∀ depth,
          5 ≤ depth
          → (evaluate depth
                (form .letIn
                  [.list [binding ("x", form .definition [.symbol "y", .number .one])],
                    .list [.symbol "x"]])
                0).on
              ⟨((Store.addGlobal ∅).2.spawnWith 0 [("f", .closure ⟨0, [], .symbol "f", 1⟩)]).2,
                #[]⟩
            = .ok (outcome, after))
        ∧ (∀ value, outcome = .ok value → value.ClosureFree)
        ∧ after.store.chain 0 = [0]
        ∧ after.store.ClosureFree 0 := by
  have procedureless
      : (form .letIn
          [.list [binding ("x", form .definition [.symbol "y", .number .one])],
            .list [.symbol "x"]]).Procedureless := by
    simp [form, binding, SpecialForm.keyword]
  have globals : (Store.addGlobal ∅).2.ClosureFree 0 := closureFree_addGlobal ∅
  have free
      : ((Store.addGlobal ∅).2.spawnWith 0
          [("f", .closure ⟨0, [], .symbol "f", 1⟩)]).2.ClosureFree 0 :=
    globals.addFrame (by decide) _
  obtain ⟨outcome, after, finished, given, chain, free'⟩ :=
    @procedureless_finishes _ procedureless 0 ⟨_, #[]⟩ (by decide) free
  refine ⟨outcome, after, finished, given, chain.trans ?_, free'⟩
  rw [Store.spawnWith, chain_addFrame_of_lt (by decide), chain_eq]
  rfl

end Eval

end MiniLisp
