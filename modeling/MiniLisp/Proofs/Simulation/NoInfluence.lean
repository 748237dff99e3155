import MiniLisp.Proofs.Simulation.Agreement
import MiniLisp.Proofs.Simulation.UnusedNames

/-! Names that are not used have no influence.
A name that stands in expressions at most as the keyword of their special forms is never looked up,
so it may be bound to anything anywhere. In particular no binding of a keyword changes what special
forms mean.
-/

namespace MiniLisp

open MiniLisp.Expr Eval Correspondence

namespace Unused

/-- The correspondence of runs whose stores differ in a name that neither run uses. -/
def simulation (name : String) : Simulation where
  World := Unit
  Extends := Eq
  Mode := Unit
  frames _ _ := Eq
  closures _ := Closures name
  stores _ := Stores name
  names _ used used' := used = used' ∧ used ≠ name
  code _ expr expr' := expr = expr' ∧ expr.KeywordOnly name
  procedures _ parameters body parameters' body' :=
    (parameters, body) = (parameters', body') ∧ body.KeywordOnly name
  fillings _ filling filling' := filling = filling' ∧ filling.body.KeywordOnly name
  malformed := Eq
  firstMayStop := False
  secondMayStop := False
  preorder := inferInstance
  frames_mono _ := id
  closures_mono _ := id
  fillings_mono _ := id
  same := by
    rintro _ _ _ _ _ _ _ _ ⟨rfl, _⟩ ⟨rfl, _⟩
    rfl
  code_of_closures := by
    rintro _ _ _ ⟨rfl, only⟩
    exact ⟨(), rfl, rfl, only⟩
  procedures_length procedures := congrArg (·.1.length) procedures.1
  lookup := by
    rintro _ _ store other env _ used _ stores rfl ⟨rfl, differs⟩
    exact ⟨stores.lookup env differs, fun _ => rfl⟩
  bind := by
    rintro _ _ _ _ env _ used _ _ _ stores rfl ⟨rfl, _⟩ together
    exact stores.bind env used together
  make := by
    rintro _ _ store other env _ parameters body _ _ stores rfl ⟨⟨⟩, only⟩
    refine ⟨(), rfl, stores.makeClosure, ?_, only⟩
    rw [Store.makeClosure, Store.makeClosure, stores.closures]
  spawn := by
    rintro _ _ store other env _ parameters body _ _ stores rfl ⟨⟨⟩, only⟩
    refine ⟨(), rfl, stores.addFrame rfl fun _ => .none, ?_, only⟩
    rw [Store.spawn, Store.spawn, Store.fst_addFrame, Store.fst_addFrame, stores.frames]
  fill := by
    rintro _ _ _ used _ _ _ _ _ frame _ _ _ stores ⟨⟨⟩, only⟩ together
    exact ⟨(), rfl, stores.bind frame used together, rfl, only⟩
  filled := by
    rintro _ _ _ _ _ ⟨⟨⟩, only⟩
    exact ⟨(), rfl, rfl, only⟩

-----------------------------------------------------------------------------------------
-- Runs
-----------------------------------------------------------------------------------------

variable {name : String}

theorem codes {exprs : List Expr} (each : ∀ expr ∈ exprs, expr.KeywordOnly name)
    : List.Forall₂ ((simulation name).code ()) exprs exprs :=
  List.forall₂_same.mpr fun expr member => ⟨rfl, each expr member⟩

/-- A shorthand may even define the name, since that looks nothing up. -/
theorem step_shorthand (evaluate : Evaluator) (key : String) (parameters : List String)
    {body : Expr} (only : body.KeywordOnly name) (env : FrameId)
    : (simulation name).Related () (simulation name).Values
        (step evaluate (form .definition [.list (.symbol key :: symbols parameters), body]) env)
        (step evaluate
          (form .definition [.list (.symbol key :: symbols parameters), body]) env) := by
  rw [step_form, evalForm_shorthand, makeClosure_symbols]
  have procedures : (simulation name).procedures () parameters body parameters body := ⟨rfl, only⟩
  have closed := Simulation.related_close (S := simulation name) (w := ()) (@rfl _ env) procedures
  refine RelatedSince.emitBoth (closed.bind fun _ value value' _ together => ?_) _ _
  exact Simulation.related_bindName_of_kept fun _ _ stores => stores.bind env key together

/-- One level of evaluation agrees, by cases on the expression's shape. -/
theorem step_unused {evaluate : Evaluator}
    (agree : (simulation name).RelatedEvaluators evaluate evaluate) {expr : Expr}
    (only : expr.KeywordOnly name) (env : FrameId)
    : (simulation name).Related () (simulation name).Values (step evaluate expr env)
        (step evaluate expr env) := by
  have same {expr : Expr} (congruent : (simulation name).Congruent () expr expr)
      : (simulation name).Related () (simulation name).Values (step evaluate expr env)
          (step evaluate expr env) :=
    Simulation.step_congruent agree rfl congruent
  cases expr.shape with
  | shorthand key parameters body =>
      have each := only.pair
      exact step_shorthand evaluate key parameters each.2 env
  | symbol used => exact same (.symbol ⟨rfl, KeywordOnly.symbol_iff.mp only⟩)
  | number value => exact same (.number value)
  | empty => exact same .empty
  | miscounted kind operands refused => exact same (.miscounted kind refused rfl)
  | conditional test yes no =>
      have each := only.operands
      exact same (.conditional ⟨rfl, each test (by simp)⟩ ⟨rfl, each yes (by simp)⟩
        ⟨rfl, each no (by simp)⟩)
  | define used body =>
      have each := only.pair
      exact same (.define ⟨rfl, KeywordOnly.symbol_iff.mp each.1⟩ ⟨rfl, each.2⟩)
  | shorthandParameter used parameters found rest body noSymbol =>
      exact same (.shorthandParameter noSymbol noSymbol rfl)
  | defineTarget target body noSymbol noShorthand =>
      exact same (.defineTarget noSymbol noShorthand noSymbol noShorthand rfl)
  | lambda parameters body =>
      have each := only.pair
      exact same (.lambda ⟨rfl, each.2⟩)
  | lambdaParameter parameters found rest body noSymbol =>
      exact same (.lambdaParameter noSymbol noSymbol rfl)
  | parameterList found body noList => exact same (.parameterList noList noList rfl)
  | letIn bounds body =>
      have each := only.pair
      rw [← List.append_nil (bindings bounds)] at each
      exact same (.letIn (codes each.1.bound) ⟨rfl, each.2⟩)
  | letBinding bounds found rest body noBinding =>
      have each := only.pair
      exact same (.letBinding (codes each.1.bound) ⟨rfl, each.2⟩ noBinding noBinding rfl)
  | bindingList found body noList => exact same (.bindingList noList noList rfl)
  | application head operands applied =>
      exact same (.application applied applied (codes (only.items applied)))

/-- Evaluation at every depth agrees, by induction on the depth. -/
theorem relatedEvaluators_evaluate (depth : Nat)
    : (simulation name).RelatedEvaluators (evaluate depth) (evaluate depth) := by
  induction depth with
  | zero => exact fun _ _ _ _ _ _ _ _ => related_abort .tooDeep .tooDeep
  | succ depth ih =>
      rintro _ _ env _ expr _ rfl ⟨rfl, only⟩
      exact step_unused ih only env

end Unused

/-- A name that is not used has no influence. Where it stands in an expression and in the bodies of
the closures that the store holds only as the keyword at the head of lists, if at all, it may be
bound to anything in any frames beforehand. The evaluation finishes just when it would have, with the
same value or error, and leaves the same store but for what this name is bound to.
-/
theorem Eval.unused_name_has_no_influence {name : String} {expr : Expr} {machine : Machine}
    (code : expr.KeywordOnly name)
    (held
      : ∀ id key closure,
          machine.store.local? id key = some (.closure closure) → closure.body.KeywordOnly name)
    (env : FrameId) (changes : List (FrameId × Value))
    : FinishTogether (Finishes expr env machine)
        (Finishes expr env { machine with store := machine.store.rebind name changes })
        fun outcome after outcome' after' =>
          outcome = outcome' ∧ after.store.AlikeBut name after'.store := by
  have before : Unused.Stores name machine.store machine.store := by
    refine ⟨rfl, rfl, fun _ => rfl, fun id key _ => ?_⟩
    cases found : machine.store.local? id key with
    | none => exact .none
    | some value =>
        refine .some (Value.alike_self fun closure same => ?_)
        exact ⟨rfl, held id key closure (found.trans (congrArg some same))⟩
  refine finishTogether_of_ends fun depth => ?_
  have ends := Unused.relatedEvaluators_evaluate depth () () env env expr expr rfl ⟨rfl, code⟩
    machine { machine with store := machine.store.rebind name changes }
    (before.rebindSecond changes)
  refine ends.imp fun left right together => ?_
  obtain ⟨_, _, stores, outcomes⟩ := together
  refine ⟨?_, stores.alikeBut⟩
  generalize left.1 = outcome at outcomes ⊢
  generalize right.1 = outcome' at outcomes ⊢
  cases outcomes with
  | ok alike => rw [Unused.eq_of_alike alike]
  | error alike => rw [(alike.imp (fun _ _ same => same.1) fun _ _ same => same).eq]

/-- A procedure that the store holds goes on choosing when `if` is bound to zero around it. -/
theorem Eval.bound_if_still_chooses
    : ∃ machine after after' : Machine,
        (∃ closure,
          machine.store.local? 0 "choose" = some (.closure closure)
          ∧ closure.body = form .conditional [.symbol "x", .number .one, .symbol "x"])
        ∧ Finishes (.list [.symbol "choose", .number .zero]) 0 machine (.ok (.integer .one)) after
        ∧ (machine.store.rebind "if" [(0, .integer .zero)]).local? 0 "if" = some (.integer .zero)
        ∧ Finishes (.list [.symbol "choose", .number .zero]) 0
            { machine with store := machine.store.rebind "if" [(0, .integer .zero)] }
            (.ok (.integer .one)) after'
        ∧ after.store.AlikeBut "if" after'.store := by
  let choose : Closure := ⟨0, ["x"], form .conditional [.symbol "x", .number .one, .symbol "x"], 0⟩
  let machine : Machine :=
    ⟨⟨#[⟨(∅ : Bindings Value).insert "choose" (.closure choose), none⟩], 1⟩, #[]⟩
  have code : (Expr.list [.symbol "choose", .number .zero]).KeywordOnly "if" :=
    .list (by simp)
  have held (id : FrameId) (key : String) (closure : Closure)
      (found : machine.store.local? id key = some (.closure closure))
      : closure.body.KeywordOnly "if" := by
    cases id with
    | zero =>
        change ((∅ : Bindings Value).insert "choose" (.closure choose)).get? key = _ at found
        rw [Bindings.get?_insert] at found
        split at found
        · obtain rfl := Value.closure.inj (Option.some.inj found)
          exact .headed .conditional (by simp)
        · cases found
    | succ id => cases found
  have chosen
      : ((evaluate 4 (.list [.symbol "choose", .number .zero]) 0).on machine).map (·.1)
        = .ok (.ok (.integer .one)) := by
    decide +kernel
  obtain ⟨⟨_, after⟩, finished, rfl⟩ := exists_of_map_eq_ok chosen
  obtain ⟨_, after', finishes', rfl, alike⟩ :=
    (unused_name_has_no_influence code held 0 [(0, .integer .zero)]).follows ⟨4, finished⟩
  exact ⟨machine, after, after', ⟨choose, rfl, rfl⟩, ⟨4, finished⟩, rfl, finishes', alike⟩

end MiniLisp
