import MiniLisp.Proofs.Evaluation.Forms
import MiniLisp.Proofs.Invariants.Basic
import MiniLisp.Proofs.Primitives.Outcomes

/-! The rules of evaluation keep every invariant, by cases on the shape of the expression. -/

namespace MiniLisp

open MiniLisp.Expr

namespace Invariant

open Eval Session

variable {I : Invariant} {store : Store} {env : FrameId}

-----------------------------------------------------------------------------------------
-- Errors about code
-----------------------------------------------------------------------------------------

/-- An error about neither code nor values needs to be right only. -/
theorem raises_plain {error : EvalError} (exprs : error.exprs = []) (values : error.values = [])
    (justified : error.Justified (I.frames store) store)
    : I.Raises store error :=
  ⟨justified, fun _ member => (nomatch exprs ▸ member), fun _ member => nomatch values ▸ member⟩

theorem raises_malformed {what : Malformed} (justified : what.Justified) (code : I.code what.expr)
    : I.Raises store (.malformed what) :=
  ⟨justified, List.forall_mem_singleton.mpr code, fun _ member => nomatch member⟩

theorem raises_notAProcedure {found : Value} (noClosure : ∀ closure, found ≠ .closure closure)
    (noPrimitive : ∀ primitive, found ≠ .primitive primitive)
    : I.Raises store (.notAProcedure found) :=
  ⟨⟨noClosure, noPrimitive⟩, fun _ member => (nomatch member),
    List.forall_mem_singleton.mpr fun closure same => absurd same (noClosure closure)⟩

/-- The operands of a special form are code, as everything in a list is. -/
theorem code_operand {kind : SpecialForm} {operands : List Expr}
    (code : I.code (form kind operands)) {operand : Expr} (member : operand ∈ operands)
    : I.code operand :=
  I.code_item code (List.mem_cons_of_mem _ member)

theorem code_symbols {names : List String} {more : List Expr}
    (code : I.code (.list (symbols names ++ more)))
    : ∀ name ∈ names, I.code (.symbol name) :=
  fun _ member =>
    I.code_item code (List.mem_append_left more (List.mem_map_of_mem member))

/-- The expressions that a `let` binds names to are code. -/
theorem code_bounds {bounds : List (String × Expr)} {more : List Expr}
    (code : I.code (.list (bindings bounds ++ more)))
    : ∀ expr ∈ bounds.map (·.2), I.code expr := by
  intro expr member
  obtain ⟨bound, among, rfl⟩ := List.mem_map.mp member
  have here : binding bound ∈ bindings bounds ++ more :=
    List.mem_append_left more (List.mem_map_of_mem among)
  exact I.code_item (I.code_item code here) (by simp)

-----------------------------------------------------------------------------------------
-- Names, definitions and closures
-----------------------------------------------------------------------------------------

section Steps

variable (frame : I.frames store env)

include frame

theorem obeys_fetch (name : String) : I.Obeys store I.Values (fetch env name) := by
  intro machine grows stores
  rw [on_fetch]
  cases found : machine.store.lookup? env name with
  | some value => exact .value (refl_of I.Grows _) stores (values_lookup? stores found)
  | none =>
      refine .failure (refl_of I.Grows _) stores (raises_plain rfl rfl ?_)
      exact ⟨env, I.frames_mono grows frame, found⟩

theorem obeys_define (name : String) {value : Value} (holds : I.Values store value)
    : I.Obeys store (fun _ _ => True) (define env name value) := by
  refine obeys_changeStore fun before grows stores => ?_
  obtain ⟨grows', stores'⟩ :=
    I.bind stores (I.frames_mono grows frame) (values_mono grows holds)
  exact ⟨grows', stores', trivial⟩

theorem obeys_bindName (name : String) {value : Value} (holds : I.Values store value)
    : I.Obeys store I.Values (bindName env name value) :=
  ((obeys_define frame name holds).bind fun _ _ _ _ => obeys_pure fun _ _ => nofun).emit _

theorem obeys_close {parameters : List String} {body : Expr}
    (names : ∀ name ∈ parameters, I.code (.symbol name)) (code : I.code body)
    : I.Obeys store I.Values (close env parameters body) := by
  have made : I.Obeys store I.closures (changeStore (·.makeClosure parameters body env)) :=
    obeys_changeStore fun before grows stores =>
      I.make stores (I.frames_mono grows frame) names code
  refine made.bind fun later closure _ holds => obeys_pure fun last grows => ?_
  rintro _ ⟨⟩
  exact I.closures_mono grows holds

/-- Code in a new frame obeys, as the frame is one that the invariant holds of. -/
theorem obeys_enter {evaluate : Evaluator} (obeys : I.ObeysEvaluator evaluate)
    (parameters : List String) {values : List Value}
    (holds : ∀ value ∈ values, I.Values store value) {body : Expr} (code : I.code body)
    : I.Obeys store I.Values
        (changeStore (·.spawnWith env (parameters.zip values)) >>= fun inner =>
          evaluate body inner) := by
  have entered : I.Obeys store I.frames
      (changeStore (·.spawnWith env (parameters.zip values))) := by
    refine obeys_changeStore fun before grows stores => ?_
    refine spawnWith_keeps stores (I.frames_mono grows frame) fun entry member => ?_
    exact values_mono grows (holds entry.2 (List.of_mem_zip member).2)
  exact entered.bind fun later inner _ inside => obeys inside code

/-- The bindings of a `let`, by induction on them: its frame is known throughout. -/
theorem obeys_bindEach {evaluate : Evaluator} (obeys : I.ObeysEvaluator evaluate) {inner : FrameId}
    (inside : I.frames store inner) {bounds : List (String × Expr)}
    (code : ∀ expr ∈ bounds.map (·.2), I.code expr)
    : I.Obeys store (fun _ _ => True) (bindEach evaluate env inner (bindings bounds)) := by
  induction bounds generalizing store with
  | nil => exact obeys_pure fun _ _ => trivial
  | cons bound rest ih =>
      rw [List.map_cons, List.forall_mem_cons] at code
      rw [bindEach_cons]
      refine (obeys frame code.1).bind fun middle value grows holds => ?_
      have inside := I.frames_mono grows inside
      refine (obeys_define inside bound.1 holds).bind fun later _ grows' _ => ?_
      exact ih (I.frames_mono (trans_of I.Grows grows grows') frame) (I.frames_mono grows' inside)
        code.2

/-- A `let` up to its end, which is the evaluation of its body or a complaint. -/
theorem obeys_let {evaluate : Evaluator} (obeys : I.ObeysEvaluator evaluate)
    {bounds : List (String × Expr)} (code : ∀ expr ∈ bounds.map (·.2), I.code expr)
    {next : FrameId → Eval Value}
    (ends : ∀ later inner, I.frames later inner → I.Obeys later I.Values (next inner))
    : I.Obeys store I.Values
        (changeStore (·.spawn env) >>= fun inner =>
          bindEach evaluate env inner (bindings bounds) >>= fun _ => next inner) := by
  have spawned : I.Obeys store I.frames (changeStore (·.spawn env)) :=
    obeys_changeStore fun before grows stores => I.spawn stores (I.frames_mono grows frame)
  refine spawned.bind fun middle inner grows inside => ?_
  exact (obeys_bindEach (I.frames_mono grows frame) obeys inside code).bind
    fun later _ grows' _ => ends later inner (I.frames_mono grows' inside)

/-- Expressions evaluated one after the other, by induction on them: the values of earlier ones are
still good in what later ones leave.
-/
theorem obeys_each {evaluate : Evaluator} (obeys : I.ObeysEvaluator evaluate) {exprs : List Expr}
    (code : ∀ expr ∈ exprs, I.code expr)
    : I.Obeys store
        (fun later values =>
          (∀ value ∈ values, I.Values later value) ∧ values.length = exprs.length)
        (each evaluate env exprs) := by
  induction exprs generalizing store with
  | nil => exact obeys_pure fun _ _ => ⟨fun _ member => (nomatch member), rfl⟩
  | cons expr rest ih =>
      rw [List.forall_mem_cons] at code
      refine (obeys frame code.1).bind fun middle value grows holds => ?_
      refine (ih (I.frames_mono grows frame) code.2).bind fun later values grows' others => ?_
      obtain ⟨others, count⟩ := others
      refine obeys_pure fun last grows'' => ⟨List.forall_mem_cons.mpr ⟨?_, ?_⟩, by simp [count]⟩
      · exact values_mono (trans_of I.Grows grows' grows'') holds
      · exact fun other member => values_mono grows'' (others other member)

end Steps

-----------------------------------------------------------------------------------------
-- Calls
-----------------------------------------------------------------------------------------

theorem obeys_checkArity (expected : Arity) (got : Nat) (name : String)
    : I.Obeys store (fun _ _ => expected.Admits got) (checkArity expected got name) := by
  unfold checkArity
  split
  · next admits => exact obeys_pure fun _ _ => admits
  · next refused => exact obeys_throw fun _ _ => raises_plain rfl rfl refused

/-- What a primitive makes of operands is a value that is no closure, or an error that is right. -/
theorem obeys_computed {primitive : Primitive} {args : List Value}
    {outcome : Except EvalError Value} (computes : primitive.Computes args outcome)
    (holds : ∀ value ∈ args, I.Values store value)
    : I.Obeys store I.Values (ofOutcome outcome) := by
  cases computes with
  | exact computed fit => exact obeys_pure fun _ _ => nofun
  | less left right => exact obeys_pure fun _ _ => nofun
  | equal left right => exact obeys_pure fun _ _ => nofun
  | overflow among outside =>
      exact obeys_throw fun _ _ => raises_plain rfl rfl (Primitive.overflow_name among)
  | @notAnInteger _ found numbers wants other rest =>
      refine obeys_throw fun later grows => ⟨other, fun _ member => (nomatch member), ?_⟩
      exact List.forall_mem_singleton.mpr (values_mono grows (holds found (by simp)))

/-- A primitive is given as many operands as it has been made for, once they have been counted. -/
theorem obeys_callPrimitive (primitive : Primitive) {args : List Value}
    (holds : ∀ value ∈ args, I.Values store value)
    : I.Obeys store I.Values (callPrimitive primitive args) := by
  refine (obeys_checkArity primitive.arity args.length primitive.name).bind
    fun later _ grows admitted => Obeys.emit ?_ _
  obtain ⟨outcome, computed, computes⟩ := Primitive.exists_compute? admitted
  rw [computed]
  exact (obeys_computed computes fun value member =>
    values_mono grows (holds value member)).emit _

section Evaluators

variable {evaluate : Evaluator} (obeys : I.ObeysEvaluator evaluate)

include obeys

theorem obeys_callClosure {closure : Closure} (known : I.closures store closure)
    {args : List Value} (holds : ∀ value ∈ args, I.Values store value)
    : I.Obeys store I.Values (callClosure evaluate closure args) := by
  obtain ⟨frame, code⟩ := I.code_of_closure known
  refine Obeys.emit ((obeys_checkArity closure.arity args.length closure.text).bind
    fun later _ grows _ => ?_) _
  rw [noteReturn_changeStore]
  exact (obeys_enter (I.frames_mono grows frame) obeys closure.parameters
    (fun value member => values_mono grows (holds value member)) code).noteReturn

theorem obeys_apply {callee : Value} (procedure : I.Values store callee) {args : List Value}
    (holds : ∀ value ∈ args, I.Values store value)
    : I.Obeys store I.Values (apply evaluate callee args) := by
  cases callee with
  | primitive given => exact obeys_callPrimitive given holds
  | closure made => exact obeys_callClosure obeys (procedure made rfl) holds
  | integer _ => exact obeys_throw fun _ _ => raises_notAProcedure nofun nofun
  | bool _ => exact obeys_throw fun _ _ => raises_notAProcedure nofun nofun
  | unspecified => exact obeys_throw fun _ _ => raises_notAProcedure nofun nofun

variable (frame : I.frames store env)

include frame

/-- An application has a procedure, as it is of a list that is not empty. -/
theorem obeys_evalApplication {head : Expr} {operands : List Expr}
    (code : I.code (.list (head :: operands)))
    : I.Obeys store I.Values (evalApplication evaluate (head :: operands) env) := by
  refine (obeys_each frame obeys fun expr member => I.code_item code member).bind
    fun later values grows results => ?_
  obtain ⟨holds, count⟩ := results
  cases values with
  | nil => cases count
  | cons callee args =>
      rw [List.forall_mem_cons] at holds
      exact obeys_apply obeys holds.1 holds.2

/-- One level of evaluation obeys, by cases on the shape of the expression. -/
theorem obeys_step {expr : Expr} (code : I.code expr)
    : I.Obeys store I.Values (step evaluate expr env) := by
  cases expr.shape with
  | symbol name => exact (obeys_fetch frame name).emit _
  | number value => exact Obeys.emit (obeys_pure fun _ _ => nofun) _
  | empty =>
      refine Obeys.emit (obeys_throw fun _ _ => ?_) _
      exact ⟨rfl, List.forall_mem_singleton.mpr code, fun _ member => nomatch member⟩
  | miscounted kind operands refused =>
      rw [step_form, evalForm_miscounted _ _ refused]
      refine Obeys.emit (obeys_throw fun _ _ => ?_) _
      exact raises_plain rfl rfl refused
  | conditional test yes no =>
      rw [step_form, evalForm_conditional]
      refine Obeys.emit ((obeys frame (code_operand code (by simp))).bind
        fun later answer grows _ => ?_) _
      have frame := I.frames_mono grows frame
      split
      · exact obeys frame (code_operand code (by simp))
      · exact obeys frame (code_operand code (by simp))
  | define name body =>
      rw [step_form, evalForm_define]
      refine Obeys.emit ((obeys frame (code_operand code (by simp))).bind
        fun later value grows holds => ?_) _
      exact obeys_bindName (I.frames_mono grows frame) name holds
  | shorthand name parameters body =>
      rw [step_form, evalForm_shorthand, makeClosure_symbols]
      have target : I.code (.list (symbols (name :: parameters) ++ [])) := by
        simpa [symbols] using code_operand code (List.mem_cons_self)
      have names := code_symbols target
      refine Obeys.emit ((obeys_close frame (List.forall_mem_cons.mp names).2
        (code_operand code (by simp))).bind fun later value grows holds => ?_) _
      exact obeys_bindName (I.frames_mono grows frame) name holds
  | shorthandParameter name parameters found rest body noSymbol =>
      rw [step_form, evalForm_shorthand, makeClosure_first env parameters noSymbol]
      have target := code_operand code (List.mem_cons_self)
      have refused : I.Obeys store I.Values (throw (.malformed (.parameter found))) :=
        obeys_throw fun _ _ =>
          raises_malformed noSymbol (I.code_item target (by simp [Malformed.expr]))
      exact Obeys.emit (refused.bind fun later value grows holds =>
        obeys_bindName (I.frames_mono grows frame) name holds) _
  | defineTarget target body noSymbol noShorthand =>
      rw [step_form, evalForm_defineTarget evaluate env noSymbol noShorthand]
      refine Obeys.emit (obeys_throw fun _ _ => ?_) _
      exact raises_malformed ⟨noSymbol, noShorthand⟩ (code_operand code (by simp [Malformed.expr]))
  | lambda parameters body =>
      rw [step_form, evalForm_lambda, makeClosure_symbols]
      have target : I.code (.list (symbols parameters ++ [])) := by
        simpa using code_operand code (List.mem_cons_self)
      exact (obeys_close frame (code_symbols target) (code_operand code (by simp))).emit _
  | lambdaParameter parameters found rest body noSymbol =>
      rw [step_form, evalForm_lambda, makeClosure_first env parameters noSymbol]
      have target := code_operand code (List.mem_cons_self)
      refine Obeys.emit (obeys_throw fun _ _ => ?_) _
      exact raises_malformed noSymbol (I.code_item target (by simp [Malformed.expr]))
  | parameterList found body noList =>
      rw [step_form, evalForm_parameterList evaluate env noList]
      refine Obeys.emit (obeys_throw fun _ _ => ?_) _
      exact raises_malformed noList (code_operand code (by simp [Malformed.expr]))
  | letIn bounds body =>
      rw [step_form, evalForm_letIn]
      have list : I.code (.list (bindings bounds ++ [])) := by
        simpa using code_operand code (List.mem_cons_self)
      exact (obeys_let frame obeys (code_bounds list) fun later inner inside =>
        obeys inside (code_operand code (by simp))).emit _
  | letBinding bounds found rest body noBinding =>
      rw [step_form, evalForm_letBinding evaluate env bounds noBinding]
      have list := code_operand code (List.mem_cons_self)
      refine Obeys.emit (obeys_let frame obeys (code_bounds list) fun _ _ _ =>
        obeys_throw fun _ _ => ?_) _
      exact raises_malformed (fun name expr same => noBinding (name, expr) same)
        (I.code_item list (by simp [Malformed.expr]))
  | bindingList found body noList =>
      rw [step_form, evalForm_bindingList evaluate env noList]
      refine Obeys.emit (obeys_throw fun _ _ => ?_) _
      exact raises_malformed noList (code_operand code (by simp [Malformed.expr]))
  | application head operands applied =>
      rw [step_application evaluate env applied]
      exact (obeys_evalApplication obeys frame code).emit _

end Evaluators

/-- Evaluation keeps every invariant, by induction on the depth. -/
theorem obeys_evaluate (I : Invariant) (depth : Nat) : I.ObeysEvaluator (evaluate depth) := by
  induction depth with
  | zero => exact fun _ _ => obeys_tooDeep
  | succ depth ih => exact fun frame code => obeys_step ih frame code

end Invariant

end MiniLisp
