import MiniLisp.Proofs.Simulation.Rules

/-! Expressions of one shape whose parts correspond are evaluated alike.
For most correspondences of code this is all that evaluation needs to know about them.
-/

namespace MiniLisp

open MiniLisp.Expr

/-- The expressions have one shape, and what evaluation uses of them corresponds part by part. A `let`
with a malformed binding makes a frame that no body is evaluated in; its names go together as those
of a frame for whatever body.
-/
inductive Correspondence.Congruent (c : Correspondence) (mode : c.Mode) : Expr → Expr → Prop
  | symbol {name name'} (names : c.names mode name name')
    : Congruent c mode (.symbol name) (.symbol name')
  | number (value) : Congruent c mode (.number value) (.number value)
  | empty : Congruent c mode (.list []) (.list [])
  | miscounted (kind : SpecialForm) {operands operands' : List Expr}
    (refused : ¬ kind.arity.Admits operands.length) (count : operands.length = operands'.length)
    : Congruent c mode (form kind operands) (form kind operands')
  | conditional {test test' yes yes' no no'} (first : c.code mode test test')
    (second : c.code mode yes yes') (third : c.code mode no no')
    : Congruent c mode (form .conditional [test, yes, no]) (form .conditional [test', yes', no'])
  | define {name name' body body'} (names : c.names mode name name')
    (code : c.code mode body body')
    : Congruent c mode (form .definition [.symbol name, body])
        (form .definition [.symbol name', body'])
  | shorthand {name name' parameters parameters' body body'} (names : c.names mode name name')
    (procedures : c.procedures mode parameters body parameters' body')
    : Congruent c mode (form .definition [.list (.symbol name :: symbols parameters), body])
        (form .definition [.list (.symbol name' :: symbols parameters'), body'])
  | shorthandParameter {name name' parameters parameters' found found' rest rest' body body'}
    (noSymbol : ∀ name, found ≠ .symbol name) (noSymbol' : ∀ name, found' ≠ .symbol name)
    (malformed : c.malformed (.parameter found) (.parameter found'))
    : Congruent c mode
        (form .definition [.list (.symbol name :: (symbols parameters ++ found :: rest)), body])
        (form .definition
          [.list (.symbol name' :: (symbols parameters' ++ found' :: rest')), body'])
  | defineTarget {target target' body body'} (noSymbol : ∀ name, target ≠ .symbol name)
    (noShorthand : ∀ name rest, target ≠ .list (.symbol name :: rest))
    (noSymbol' : ∀ name, target' ≠ .symbol name)
    (noShorthand' : ∀ name rest, target' ≠ .list (.symbol name :: rest))
    (malformed : c.malformed (.defineTarget target) (.defineTarget target'))
    : Congruent c mode (form .definition [target, body]) (form .definition [target', body'])
  | lambda {parameters parameters' body body'}
    (procedures : c.procedures mode parameters body parameters' body')
    : Congruent c mode (form .lambda [.list (symbols parameters), body])
        (form .lambda [.list (symbols parameters'), body'])
  | lambdaParameter {parameters parameters' found found' rest rest' body body'}
    (noSymbol : ∀ name, found ≠ .symbol name) (noSymbol' : ∀ name, found' ≠ .symbol name)
    (malformed : c.malformed (.parameter found) (.parameter found'))
    : Congruent c mode (form .lambda [.list (symbols parameters ++ found :: rest), body])
        (form .lambda [.list (symbols parameters' ++ found' :: rest'), body'])
  | parameterList {found found' body body'} (noList : ∀ items, found ≠ .list items)
    (noList' : ∀ items, found' ≠ .list items)
    (malformed : c.malformed (.parameterList found) (.parameterList found'))
    : Congruent c mode (form .lambda [found, body]) (form .lambda [found', body'])
  | letIn {bounds bounds' : List (String × Expr)} {body body'}
    (code : List.Forall₂ (c.code mode) (bounds.map (·.2)) (bounds'.map (·.2)))
    (procedures : c.procedures mode (bounds.map (·.1)) body (bounds'.map (·.1)) body')
    : Congruent c mode (form .letIn [.list (bindings bounds), body])
        (form .letIn [.list (bindings bounds'), body'])
  | letBinding {bounds bounds' : List (String × Expr)} {found found' rest rest' body body'}
    {inner inner' : Expr}
    (code : List.Forall₂ (c.code mode) (bounds.map (·.2)) (bounds'.map (·.2)))
    (procedures : c.procedures mode (bounds.map (·.1)) inner (bounds'.map (·.1)) inner')
    (noBinding : ∀ bound, found ≠ binding bound) (noBinding' : ∀ bound, found' ≠ binding bound)
    (malformed : c.malformed (.binding found) (.binding found'))
    : Congruent c mode (form .letIn [.list (bindings bounds ++ found :: rest), body])
        (form .letIn [.list (bindings bounds' ++ found' :: rest'), body'])
  | bindingList {found found' body body'} (noList : ∀ items, found ≠ .list items)
    (noList' : ∀ items, found' ≠ .list items)
    (malformed : c.malformed (.bindingList found) (.bindingList found'))
    : Congruent c mode (form .letIn [found, body]) (form .letIn [found', body'])
  | application {head head' operands operands'} (applied : SpecialForm.ofHead? head = none)
    (applied' : SpecialForm.ofHead? head' = none)
    (code : List.Forall₂ (c.code mode) (head :: operands) (head' :: operands'))
    : Congruent c mode (.list (head :: operands)) (.list (head' :: operands'))

/-- Where nothing is told apart from itself, every expression is congruent to itself, by its shape. -/
theorem Correspondence.congruent_self {c : Correspondence} {mode : c.Mode}
    (names : ∀ name, c.names mode name name) (code : ∀ expr, c.code mode expr expr)
    (procedures : ∀ parameters body, c.procedures mode parameters body parameters body)
    (malformed : ∀ what, c.malformed what what) (expr : Expr)
    : c.Congruent mode expr expr := by
  have codes (exprs : List Expr) : List.Forall₂ (c.code mode) exprs exprs :=
    List.forall₂_same.mpr fun expr _ => code expr
  cases expr.shape with
  | symbol name => exact .symbol (names name)
  | number value => exact .number value
  | empty => exact .empty
  | miscounted kind operands refused => exact .miscounted kind refused rfl
  | conditional test yes no => exact .conditional (code test) (code yes) (code no)
  | define name body => exact .define (names name) (code body)
  | shorthand name parameters body => exact .shorthand (names name) (procedures parameters body)
  | shorthandParameter name parameters found rest body noSymbol =>
      exact .shorthandParameter noSymbol noSymbol (malformed _)
  | defineTarget target body noSymbol noShorthand =>
      exact .defineTarget noSymbol noShorthand noSymbol noShorthand (malformed _)
  | lambda parameters body => exact .lambda (procedures parameters body)
  | lambdaParameter parameters found rest body noSymbol =>
      exact .lambdaParameter noSymbol noSymbol (malformed _)
  | parameterList found body noList => exact .parameterList noList noList (malformed _)
  | letIn bounds body => exact .letIn (codes _) (procedures _ body)
  | letBinding bounds found rest body noBinding =>
      exact .letBinding (codes _) (procedures _ body) noBinding noBinding (malformed _)
  | bindingList found body noList => exact .bindingList noList noList (malformed _)
  | application head operands applied => exact .application applied applied (codes _)

namespace Simulation

open Eval Correspondence

variable {S : Simulation} {w : S.World}

theorem isFalse_together {value value' : Value} (together : S.Values w value value')
    : value.isFalse = value'.isFalse := by
  cases together <;> rfl

/-- One level of evaluation agrees on expressions of one shape, by cases on the shape. -/
theorem step_congruent {evaluate evaluate' : Evaluator}
    (agree : S.RelatedEvaluators evaluate evaluate') {mode : S.Mode} {env env' : FrameId}
    (frames : S.frames w mode env env') {expr expr' : Expr}
    (congruent : S.Congruent mode expr expr')
    : S.Related w S.Values (step evaluate expr env) (step evaluate' expr' env') := by
  cases congruent with
  | symbol names => exact (related_fetch frames names).emitBoth _ _
  | number value =>
      exact RelatedSince.emitBoth (related_pure (.integer value)) _ _
  | empty => exact RelatedSince.emitBoth (related_throw .emptyForm) _ _
  | miscounted kind refused count =>
      rw [step_form, step_form, evalForm_miscounted _ _ refused,
        evalForm_miscounted _ _ (count ▸ refused), count]
      exact RelatedSince.emitBoth (related_throw (.arityMismatch _)) _ _
  | conditional first second third =>
      rw [step_form, step_form, evalForm_conditional, evalForm_conditional]
      refine RelatedSince.emitBoth ?_ _ _
      refine (agree w mode env env' _ _ frames first).bind
        fun w' answer answer' grows together => ?_
      rw [isFalse_together together]
      have later := S.frames_mono grows frames
      split
      · exact agree w' mode env env' _ _ later third
      · exact agree w' mode env env' _ _ later second
  | define names code =>
      rw [step_form, step_form, evalForm_define, evalForm_define]
      refine RelatedSince.emitBoth ?_ _ _
      exact (agree w mode env env' _ _ frames code).bind fun w' value value' grows together =>
        related_bindName (S.frames_mono grows frames) names together
  | shorthand names procedures =>
      rw [step_form, step_form, evalForm_shorthand, evalForm_shorthand, makeClosure_symbols,
        makeClosure_symbols]
      refine RelatedSince.emitBoth ?_ _ _
      exact (related_close frames procedures).bind fun w' value value' grows together =>
        related_bindName (S.frames_mono grows frames) names together
  | shorthandParameter noSymbol noSymbol' malformed =>
      rw [step_form, step_form, evalForm_shorthand, evalForm_shorthand,
        makeClosure_first env _ noSymbol, makeClosure_first env' _ noSymbol']
      exact RelatedSince.emitBoth (related_throw (.malformed malformed)) _ _
  | defineTarget noSymbol noShorthand noSymbol' noShorthand' malformed =>
      rw [step_form, step_form, evalForm_defineTarget evaluate env noSymbol noShorthand,
        evalForm_defineTarget evaluate' env' noSymbol' noShorthand']
      exact RelatedSince.emitBoth (related_throw (.malformed malformed)) _ _
  | lambda procedures =>
      rw [step_form, step_form, evalForm_lambda, evalForm_lambda, makeClosure_symbols,
        makeClosure_symbols]
      exact (related_close frames procedures).emitBoth _ _
  | lambdaParameter noSymbol noSymbol' malformed =>
      rw [step_form, step_form, evalForm_lambda, evalForm_lambda,
        makeClosure_first env _ noSymbol, makeClosure_first env' _ noSymbol']
      exact RelatedSince.emitBoth (related_throw (.malformed malformed)) _ _
  | parameterList noList noList' malformed =>
      rw [step_form, step_form, evalForm_parameterList evaluate env noList,
        evalForm_parameterList evaluate' env' noList']
      exact RelatedSince.emitBoth (related_throw (.malformed malformed)) _ _
  | letIn code procedures =>
      rw [step_form, step_form, evalForm_letIn, evalForm_letIn]
      refine RelatedSince.emitBoth ?_ _ _
      refine related_let frames agree code procedures fun w' frame frame' filled => ?_
      obtain ⟨mode', inside, code⟩ := S.filled filled
      exact agree w' mode' frame frame' _ _ inside code
  | letBinding code procedures noBinding noBinding' malformed =>
      rw [step_form, step_form, evalForm_letBinding evaluate env _ noBinding,
        evalForm_letBinding evaluate' env' _ noBinding']
      refine RelatedSince.emitBoth ?_ _ _
      exact related_let frames agree code procedures fun _ _ _ _ =>
        related_throw (.malformed malformed)
  | bindingList noList noList' malformed =>
      rw [step_form, step_form, evalForm_bindingList evaluate env noList,
        evalForm_bindingList evaluate' env' noList']
      exact RelatedSince.emitBoth (related_throw (.malformed malformed)) _ _
  | application applied applied' code =>
      rw [step_application evaluate env applied, step_application evaluate' env' applied']
      exact (related_evalApplication agree frames code).emitBoth _ _

/-- Where corresponding code is of one shape throughout, runs of the same depth correspond. -/
theorem relatedEvaluators_evaluate
    (congruent : ∀ mode expr expr', S.code mode expr expr' → S.Congruent mode expr expr')
    (depth : Nat)
    : S.RelatedEvaluators (evaluate depth) (evaluate depth) := by
  induction depth with
  | zero => exact fun _ _ _ _ _ _ _ _ => related_abort .tooDeep .tooDeep
  | succ depth ih =>
      intro w mode env env' expr expr' frames code
      exact step_congruent ih frames (congruent mode expr expr' code)

/-- Where code corresponds to itself and to nothing else, runs of the same depth correspond. -/
theorem relatedEvaluators_of_eq
    (equal : ∀ {mode expr expr'}, S.code mode expr expr' → expr = expr')
    (code : ∀ mode expr, S.code mode expr expr) (names : ∀ mode name, S.names mode name name)
    (procedures : ∀ mode parameters body, S.procedures mode parameters body parameters body)
    (malformed : ∀ what, S.malformed what what) (depth : Nat)
    : S.RelatedEvaluators (evaluate depth) (evaluate depth) := by
  refine relatedEvaluators_evaluate (fun mode expr expr' same => ?_) depth
  obtain rfl := equal same
  exact congruent_self (names mode) (code mode) (procedures mode) malformed expr

end Simulation

end MiniLisp
