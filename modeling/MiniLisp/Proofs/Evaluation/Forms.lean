import Mathlib.Data.List.Basic
import MiniLisp.Eval.Basic
import MiniLisp.Machine.Lemmas

/-! The shapes of expressions and what one level of evaluation makes of each.
A shape shows everything that evaluation looks at: which special form a list is, whether its
operands are well formed, and the first of them that is not.
-/

namespace MiniLisp

namespace Expr

/-- The special form with these operands. -/
def form (form : SpecialForm) (operands : List Expr) : Expr :=
  .list (.symbol form.keyword :: operands)

/-- A parameter list. -/
def symbols (names : List String) : List Expr :=
  names.map .symbol

/-- A name with the expression that it is bound to, as `let` wants it. -/
def binding (bound : String × Expr) : Expr :=
  .list [.symbol bound.1, bound.2]

/-- The bindings of a `let`. -/
def bindings (bounds : List (String × Expr)) : List Expr :=
  bounds.map binding

/-- The expression as evaluation sees it. -/
inductive Shape : Expr → Prop
  | symbol (name) : Shape (.symbol name)
  | number (value) : Shape (.number value)
  | empty : Shape (.list [])
  | miscounted (form) (operands) (refused : ¬ form.arity.Admits operands.length)
    : Shape (Expr.form form operands)
  | conditional (test yes no) : Shape (form .conditional [test, yes, no])
  | define (name body) : Shape (form .definition [.symbol name, body])
  | shorthand (name parameters body)
    : Shape (form .definition [.list (.symbol name :: symbols parameters), body])
  | shorthandParameter (name parameters found rest body) (noSymbol : ∀ name, found ≠ .symbol name)
    : Shape
        (form .definition [.list (.symbol name :: (symbols parameters ++ found :: rest)), body])
  | defineTarget (target body) (noSymbol : ∀ name, target ≠ .symbol name)
    (noShorthand : ∀ name rest, target ≠ .list (.symbol name :: rest))
    : Shape (form .definition [target, body])
  | lambda (parameters body) : Shape (form .lambda [.list (symbols parameters), body])
  | lambdaParameter (parameters found rest body) (noSymbol : ∀ name, found ≠ .symbol name)
    : Shape (form .lambda [.list (symbols parameters ++ found :: rest), body])
  | parameterList (found body) (noList : ∀ items, found ≠ .list items)
    : Shape (form .lambda [found, body])
  | letIn (bounds body) : Shape (form .letIn [.list (bindings bounds), body])
  | letBinding (bounds found rest body) (noBinding : ∀ bound, found ≠ binding bound)
    : Shape (form .letIn [.list (bindings bounds ++ found :: rest), body])
  | bindingList (found body) (noList : ∀ items, found ≠ .list items)
    : Shape (form .letIn [found, body])
  | application (head operands) (applied : SpecialForm.ofHead? head = none)
    : Shape (.list (head :: operands))

/-- Expressions are what a function makes of things, or there is a first that is not. -/
theorem image_or_first {Part : Type} (make : Part → Expr) (exprs : List Expr)
    : (∃ parts : List Part, exprs = parts.map make)
      ∨ ∃ (parts : List Part) (found : Expr) (rest : List Expr),
          exprs = parts.map make ++ found :: rest ∧ ∀ part, found ≠ make part := by
  induction exprs with
  | nil => exact .inl ⟨[], rfl⟩
  | cons expr rest ih =>
      by_cases made : ∃ part, expr = make part
      · obtain ⟨part, rfl⟩ := made
        rcases ih with ⟨parts, rfl⟩ | ⟨parts, found, more, rfl, first⟩
        · exact .inl ⟨part :: parts, rfl⟩
        · exact .inr ⟨part :: parts, found, more, rfl, first⟩
      · exact .inr ⟨[], expr, rest, rfl, fun part same => made ⟨part, same⟩⟩

end Expr

theorem SpecialForm.ofHead?_eq_some_iff {head : Expr} {form : SpecialForm}
    : ofHead? head = some form ↔ head = .symbol form.keyword := by
  cases head with
  | symbol name => simpa [ofHead?, eq_comm] using ofKeyword?_eq_some_iff
  | number _ | list _ => simp [ofHead?]

namespace Expr

theorem shape_definition (target body : Expr) : Shape (form .definition [target, body]) := by
  by_cases symbol : ∃ name, target = .symbol name
  · obtain ⟨name, rfl⟩ := symbol
    exact .define name body
  by_cases shorthand : ∃ name rest, target = .list (.symbol name :: rest)
  · obtain ⟨name, parameters, rfl⟩ := shorthand
    rcases image_or_first Expr.symbol parameters with
      ⟨names, rfl⟩ | ⟨names, found, rest, rfl, first⟩
    · exact .shorthand name names body
    · exact .shorthandParameter name names found rest body first
  exact .defineTarget target body (fun name same => symbol ⟨name, same⟩)
    fun name rest same => shorthand ⟨name, rest, same⟩

theorem shape_lambda (target body : Expr) : Shape (form .lambda [target, body]) := by
  by_cases list : ∃ items, target = .list items
  · obtain ⟨parameters, rfl⟩ := list
    rcases image_or_first Expr.symbol parameters with
      ⟨names, rfl⟩ | ⟨names, found, rest, rfl, first⟩
    · exact .lambda names body
    · exact .lambdaParameter names found rest body first
  exact .parameterList target body fun items same => list ⟨items, same⟩

theorem shape_let (target body : Expr) : Shape (form .letIn [target, body]) := by
  by_cases list : ∃ items, target = .list items
  · obtain ⟨items, rfl⟩ := list
    rcases image_or_first binding items with ⟨bounds, rfl⟩ | ⟨bounds, found, rest, rfl, first⟩
    · exact .letIn bounds body
    · exact .letBinding bounds found rest body first
  exact .bindingList target body fun items same => list ⟨items, same⟩

theorem shape_form (kind : SpecialForm) (operands : List Expr) : Shape (form kind operands) := by
  by_cases admitted : kind.arity.Admits operands.length
  · cases kind with
    | conditional =>
        obtain ⟨test, yes, no, rfl⟩ :=
          List.length_eq_three.mp (Arity.exactly_admits_iff.mp admitted)
        exact .conditional test yes no
    | definition =>
        obtain ⟨target, body, rfl⟩ := List.length_eq_two.mp (Arity.exactly_admits_iff.mp admitted)
        exact shape_definition target body
    | lambda =>
        obtain ⟨target, body, rfl⟩ := List.length_eq_two.mp (Arity.exactly_admits_iff.mp admitted)
        exact shape_lambda target body
    | letIn =>
        obtain ⟨target, body, rfl⟩ := List.length_eq_two.mp (Arity.exactly_admits_iff.mp admitted)
        exact shape_let target body
  · exact .miscounted kind operands admitted

/-- Every expression has a shape. -/
theorem shape (expr : Expr) : expr.Shape := by
  match expr with
  | .symbol name => exact .symbol name
  | .number value => exact .number value
  | .list [] => exact .empty
  | .list (head :: operands) =>
      cases found : SpecialForm.ofHead? head with
      | none => exact .application head operands found
      | some kind =>
          rw [SpecialForm.ofHead?_eq_some_iff.mp found]
          exact shape_form kind operands

end Expr

namespace Eval

open MiniLisp.Expr

variable (evaluate : Evaluator) (env : FrameId)

-----------------------------------------------------------------------------------------
-- One level of evaluation
-----------------------------------------------------------------------------------------

theorem step_form (kind : SpecialForm) (operands : List Expr)
    : step evaluate (form kind operands) env
      = (emit (.eval (form kind operands)) >>= fun _ =>
          evalForm evaluate kind operands env) := by
  simp only [step, form, SpecialForm.ofHead?, SpecialForm.ofKeyword?_keyword]

theorem step_application {head : Expr} (applied : SpecialForm.ofHead? head = none)
    (operands : List Expr)
    : step evaluate (.list (head :: operands)) env
      = (emit (.eval (.list (head :: operands))) >>= fun _ =>
          evalApplication evaluate (head :: operands) env) := by
  simp only [step, applied]

/-- A new frame is no part of what is noted down, so it makes no difference where it is made. -/
theorem noteReturn_changeStore {Result : Type} (change : Store → Result × Store)
    (next : Result → Eval Value)
    : (changeStore change >>= fun result => noteReturn (next result))
      = noteReturn (changeStore change >>= next) :=
  rfl

-----------------------------------------------------------------------------------------
-- Closures and bindings
-----------------------------------------------------------------------------------------

/-- Binds a name in the frame, as the end of a definition. -/
def bindName (name : String) (value : Value) : Eval Value := do
  emit (.define name value)
  define env name value
  return .unspecified

/-- Makes a closure of names that are known to be its parameters. -/
def close (names : List String) (body : Expr) : Eval Value := do
  return .closure (← changeStore (·.makeClosure names body env))

theorem parameterNames_symbols (names : List String)
    : parameterNames (symbols names) = .ok names := by
  induction names with
  | nil => rfl
  | cons name rest ih =>
      simp only [symbols] at ih
      simp only [symbols, List.map_cons, parameterNames, ih, Except.map]

theorem parameterNames_first (names : List String) {found : Expr}
    (noSymbol : ∀ name, found ≠ .symbol name) (rest : List Expr)
    : parameterNames (symbols names ++ found :: rest) = .error (.malformed (.parameter found)) := by
  induction names with
  | nil =>
      simp only [symbols, List.map_nil, List.nil_append]
      rw [parameterNames]
      exact noSymbol
  | cons name names ih =>
      simp only [symbols] at ih
      simp only [symbols, List.map_cons, List.cons_append, parameterNames, ih, Except.map]

theorem makeClosure_symbols (names : List String) (body : Expr)
    : makeClosure (symbols names) body env = close env names body := by
  rw [makeClosure, parameterNames_symbols]
  rfl

theorem makeClosure_first (names : List String) {found : Expr}
    (noSymbol : ∀ name, found ≠ .symbol name) (rest : List Expr) (body : Expr)
    : makeClosure (symbols names ++ found :: rest) body env
      = throw (.malformed (.parameter found)) := by
  rw [makeClosure, parameterNames_first names noSymbol]
  rfl

/-- A binding is made as soon as its value is known, and before the next expression is evaluated. -/
theorem bindEach_cons (frame : FrameId) (bound : String × Expr) (rest : List (String × Expr))
    : bindEach evaluate env frame (bindings (bound :: rest))
      = (evaluate bound.2 env >>= fun value =>
          define frame bound.1 value >>= fun _ =>
            bindEach evaluate env frame (bindings rest)) :=
  rfl

/-- The bindings before the first that is malformed are made all the same, by induction on them. -/
theorem bindEach_first (frame : FrameId) (bounds : List (String × Expr)) {found : Expr}
    (noBinding : ∀ bound, found ≠ binding bound) (rest : List Expr)
    : bindEach evaluate env frame (bindings bounds ++ found :: rest)
      = (bindEach evaluate env frame (bindings bounds) >>= fun _ =>
          throw (.malformed (.binding found))) := by
  induction bounds with
  | nil =>
      simp only [bindings, List.map_nil, List.nil_append, bindEach, pure_bind]
      rw [bindEach]
      exact fun name expr same => noBinding (name, expr) same
  | cons bound bounds ih =>
      simp only [bindings] at ih
      simp only [bindings, List.map_cons, List.cons_append, binding, bindEach, bind_assoc, ih]

-----------------------------------------------------------------------------------------
-- Special forms by their shape
-----------------------------------------------------------------------------------------

theorem evalForm_miscounted {kind : SpecialForm} {operands : List Expr}
    (refused : ¬ kind.arity.Admits operands.length)
    : evalForm evaluate kind operands env
      = throw (.arityMismatch ⟨kind.keyword, kind.arity, operands.length⟩) := by
  rw [evalForm.eq_def, checkArity, if_neg refused]
  rfl

theorem evalForm_conditional (test yes no : Expr)
    : evalForm evaluate .conditional [test, yes, no] env
      = (evaluate test env >>= fun answer =>
          if answer.isFalse then evaluate no env else evaluate yes env) :=
  rfl

theorem evalForm_define (name : String) (body : Expr)
    : evalForm evaluate .definition [.symbol name, body] env
      = (evaluate body env >>= fun value => bindName env name value) := by
  simp only [evalForm, checkArity, evalDefine, definition, bindName, bind_assoc, pure_bind]
  rfl

theorem evalForm_shorthand (name : String) (parameters : List Expr) (body : Expr)
    : evalForm evaluate .definition [.list (.symbol name :: parameters), body] env
      = (makeClosure parameters body env >>= fun value => bindName env name value) := by
  simp only [evalForm, checkArity, evalDefine, definition, bindName, bind_assoc, pure_bind]
  rfl

theorem evalForm_defineTarget {target : Expr} (noSymbol : ∀ name, target ≠ .symbol name)
    (noShorthand : ∀ name parameters, target ≠ .list (.symbol name :: parameters)) (body : Expr)
    : evalForm evaluate .definition [target, body] env
      = throw (.malformed (.defineTarget target)) := by
  simp only [evalForm, checkArity, evalDefine, definition]
  rfl

theorem evalForm_lambda (parameters : List Expr) (body : Expr)
    : evalForm evaluate .lambda [.list parameters, body] env = makeClosure parameters body env :=
  rfl

theorem evalForm_parameterList {found : Expr} (noList : ∀ items, found ≠ .list items)
    (body : Expr)
    : evalForm evaluate .lambda [found, body] env
      = throw (.malformed (.parameterList found)) := by
  simp only [evalForm, checkArity, evalLambda]
  rfl

theorem evalForm_letIn (bounds : List (String × Expr)) (body : Expr)
    : evalForm evaluate .letIn [.list (bindings bounds), body] env
      = (changeStore (·.spawn env) >>= fun frame =>
          bindEach evaluate env frame (bindings bounds) >>= fun _ => evaluate body frame) :=
  rfl

theorem evalForm_letBinding (bounds : List (String × Expr)) {found : Expr}
    (noBinding : ∀ bound, found ≠ binding bound) (rest : List Expr) (body : Expr)
    : evalForm evaluate .letIn [.list (bindings bounds ++ found :: rest), body] env
      = (changeStore (·.spawn env) >>= fun frame =>
          bindEach evaluate env frame (bindings bounds) >>= fun _ =>
            throw (.malformed (.binding found))) := by
  rw [evalForm, checkArity, if_pos (by rw [SpecialForm.arity, Arity.exactly_admits_iff]; rfl),
    pure_bind]
  simp only [evalLet, bindEach_first evaluate env _ bounds noBinding, bind_assoc]
  rfl

theorem evalForm_bindingList {found : Expr} (noList : ∀ items, found ≠ .list items)
    (body : Expr)
    : evalForm evaluate .letIn [found, body] env
      = throw (.malformed (.bindingList found)) := by
  simp only [evalForm, checkArity, evalLet]
  rfl

end Eval

end MiniLisp
