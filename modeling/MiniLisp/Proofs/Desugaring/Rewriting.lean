import MiniLisp.Proofs.Evaluation.Forms

/-! Desugaring: programs without `let` and without the shorthand for procedures.
A `let` stands for an applied `lambda`, and the shorthand for the definition of one. Both are
rewritten wherever an expression may come to be evaluated. Malformed forms stay what they are.
-/

namespace MiniLisp.Expr

mutual

/-- Rewrites every `let` and every shorthand that may come to be evaluated, if it is well formed. -/
def desugar : Expr → Expr
  | .list (head :: operands) =>
      match SpecialForm.ofHead? head with
      | some kind => desugarForm kind operands
      | none => .list (desugar head :: desugarAll operands)
  | expr => expr
termination_by structural expr => expr

/-- Rewrites a special form. An expression in it is rewritten only if it is evaluated: not in a form
of the wrong operand count or with a malformed parameter, nor behind the first malformed binding.
-/
def desugarForm : SpecialForm → List Expr → Expr
  | .conditional, [test, yes, no] =>
      form .conditional [desugar test, desugar yes, desugar no]
  | .definition, [.symbol name, body] => form .definition [.symbol name, desugar body]
  | .definition, [.list (.symbol name :: parameters), body] =>
      match Eval.parameterNames parameters with
      | .ok names =>
          form .definition [.symbol name, form .lambda [.list (symbols names), desugar body]]
      | .error _ => form .definition [.list (.symbol name :: parameters), body]
  | .lambda, [.list parameters, body] =>
      match Eval.parameterNames parameters with
      | .ok names => form .lambda [.list (symbols names), desugar body]
      | .error _ => form .lambda [.list parameters, body]
  | .letIn, [.list items, body] =>
      match desugarBindings items with
      | (bounds, []) =>
          .list (form .lambda [.list (symbols (bounds.map (·.1))), desugar body]
            :: bounds.map (·.2))
      | (bounds, rest) => form .letIn [.list (bindings bounds ++ rest), body]
  | kind, operands => form kind operands
termination_by structural _ operands => operands

/-- The well-formed bindings that come first, with their expressions rewritten, and the rest. -/
def desugarBindings : List Expr → List (String × Expr) × List Expr
  | .list [.symbol name, expr] :: rest =>
      ((name, desugar expr) :: (desugarBindings rest).1, (desugarBindings rest).2)
  | rest => ([], rest)
termination_by structural items => items

/-- Rewrites expressions that are evaluated one after the other. -/
def desugarAll : List Expr → List Expr
  | [] => []
  | expr :: rest => desugar expr :: desugarAll rest
termination_by structural exprs => exprs

end

/-- A name with its expression rewritten. -/
def desugarBound (bound : String × Expr) : String × Expr :=
  (bound.1, desugar bound.2)

-----------------------------------------------------------------------------------------
-- What becomes of each shape
-----------------------------------------------------------------------------------------

theorem desugarAll_eq_map (exprs : List Expr) : desugarAll exprs = exprs.map desugar := by
  induction exprs with
  | nil => rfl
  | cons expr rest ih => rw [desugarAll, ih, List.map_cons]

/-- Bindings are rewritten up to the first that is malformed, by induction on those before it. -/
theorem desugarBindings_append (bounds : List (String × Expr)) {rest : List Expr}
    (ends : desugarBindings rest = ([], rest))
    : desugarBindings (bindings bounds ++ rest) = (bounds.map desugarBound, rest) := by
  induction bounds with
  | nil => exact ends
  | cons bound _ ih =>
      simp only [bindings, List.map_cons, List.cons_append, binding, desugarBindings] at ih ⊢
      rw [ih, desugarBound]

theorem desugarBindings_first {found : Expr} (noBinding : ∀ bound, found ≠ binding bound)
    (rest : List Expr)
    : desugarBindings (found :: rest) = ([], found :: rest) := by
  rw [desugarBindings]
  intro name expr rest' same
  exact noBinding (name, expr) (List.cons.inj same).1

theorem desugar_form (kind : SpecialForm) (operands : List Expr)
    : desugar (form kind operands) = desugarForm kind operands := by
  simp only [form, desugar, SpecialForm.ofHead?, SpecialForm.ofKeyword?_keyword]

theorem ofHead?_desugarForm (kind : SpecialForm) (operands : List Expr)
    : SpecialForm.ofHead? (desugarForm kind operands) = none := by
  unfold desugarForm
  split
  · rfl
  · rfl
  · split <;> rfl
  · split <;> rfl
  · split <;> rfl
  · rfl

/-- Rewriting makes no keyword of what was none, by cases on the expression. -/
theorem ofHead?_desugar (expr : Expr)
    : SpecialForm.ofHead? expr.desugar = SpecialForm.ofHead? expr := by
  cases expr with
  | symbol _ | number _ => rfl
  | list items =>
      unfold desugar
      split
      · split
        · exact ofHead?_desugarForm _ _
        · rfl
      · rfl

theorem desugar_application {head : Expr} (applied : SpecialForm.ofHead? head = none)
    (operands : List Expr)
    : desugar (.list (head :: operands)) = .list ((head :: operands).map desugar) := by
  simp only [desugar, applied, desugarAll_eq_map, List.map_cons]

theorem desugar_shorthand (name : String) (parameters : List String) (body : Expr)
    : desugar (form .definition [.list (.symbol name :: symbols parameters), body])
      = form .definition
          [.symbol name, form .lambda [.list (symbols parameters), desugar body]] := by
  simp only [desugar_form, desugarForm, Eval.parameterNames_symbols]

theorem desugar_lambda (parameters : List String) (body : Expr)
    : desugar (form .lambda [.list (symbols parameters), body])
      = form .lambda [.list (symbols parameters), desugar body] := by
  simp only [desugar_form, desugarForm, Eval.parameterNames_symbols]

theorem desugar_letIn (bounds : List (String × Expr)) (body : Expr)
    : desugar (form .letIn [.list (bindings bounds), body])
      = .list (form .lambda [.list (symbols (bounds.map (·.1))), desugar body]
          :: bounds.map (desugar ·.2)) := by
  have split : desugarBindings (bindings bounds) = (bounds.map desugarBound, []) := by
    rw [← List.append_nil (bindings bounds)]
    exact desugarBindings_append bounds rfl
  simp only [desugar_form, desugarForm, split, List.map_map]
  rfl

/-- `(let ((n m)) n)` is `((lambda (n) n) m)`. -/
example
    : desugar (form .letIn [.list [binding ("n", .symbol "m")], .symbol "n"])
      = .list [form .lambda [.list [.symbol "n"], .symbol "n"], .symbol "m"] :=
  rfl

theorem desugar_letBinding (bounds : List (String × Expr)) {found : Expr}
    (noBinding : ∀ bound, found ≠ binding bound) (rest : List Expr) (body : Expr)
    : desugar (form .letIn [.list (bindings bounds ++ found :: rest), body])
      = form .letIn [.list (bindings (bounds.map desugarBound) ++ found :: rest), body] := by
  simp only [desugar_form, desugarForm,
    desugarBindings_append bounds (desugarBindings_first noBinding rest)]

-----------------------------------------------------------------------------------------
-- Malformed forms
-----------------------------------------------------------------------------------------

theorem desugar_miscounted {kind : SpecialForm} {operands : List Expr}
    (refused : ¬ kind.arity.Admits operands.length)
    : desugar (form kind operands) = form kind operands := by
  rw [desugar_form]
  unfold desugarForm
  split
  · exact absurd (Arity.exactly_admits_iff.mpr rfl) refused
  · exact absurd (Arity.exactly_admits_iff.mpr rfl) refused
  · exact absurd (Arity.exactly_admits_iff.mpr rfl) refused
  · exact absurd (Arity.exactly_admits_iff.mpr rfl) refused
  · exact absurd (Arity.exactly_admits_iff.mpr rfl) refused
  · rfl

theorem desugar_shorthandParameter (name : String) (parameters : List String) {found : Expr}
    (noSymbol : ∀ name, found ≠ .symbol name) (rest : List Expr) (body : Expr)
    : desugar (form .definition
          [.list (.symbol name :: (symbols parameters ++ found :: rest)), body])
      = form .definition [.list (.symbol name :: (symbols parameters ++ found :: rest)), body] := by
  simp only [desugar_form, desugarForm, Eval.parameterNames_first parameters noSymbol]

theorem desugar_defineTarget {target : Expr} (noSymbol : ∀ name, target ≠ .symbol name)
    (noShorthand : ∀ name rest, target ≠ .list (.symbol name :: rest)) (body : Expr)
    : desugar (form .definition [target, body]) = form .definition [target, body] := by
  rw [desugar_form]
  cases target with
  | symbol name => exact absurd rfl (noSymbol name)
  | number value => rfl
  | list items =>
      rcases items with _ | ⟨head, rest⟩
      · rfl
      · cases head with
        | symbol name => exact absurd rfl (noShorthand name rest)
        | number _ | list _ => rfl

theorem desugar_lambdaParameter (parameters : List String) {found : Expr}
    (noSymbol : ∀ name, found ≠ .symbol name) (rest : List Expr) (body : Expr)
    : desugar (form .lambda [.list (symbols parameters ++ found :: rest), body])
      = form .lambda [.list (symbols parameters ++ found :: rest), body] := by
  simp only [desugar_form, desugarForm, Eval.parameterNames_first parameters noSymbol]

theorem desugar_parameterList {found : Expr} (noList : ∀ items, found ≠ .list items) (body : Expr)
    : desugar (form .lambda [found, body]) = form .lambda [found, body] := by
  rw [desugar_form]
  cases found with
  | list items => exact absurd rfl (noList items)
  | symbol _ | number _ => rfl

theorem desugar_bindingList {found : Expr} (noList : ∀ items, found ≠ .list items) (body : Expr)
    : desugar (form .letIn [found, body]) = form .letIn [found, body] := by
  rw [desugar_form]
  cases found with
  | list items => exact absurd rfl (noList items)
  | symbol _ | number _ => rfl

-----------------------------------------------------------------------------------------
-- What is left
-----------------------------------------------------------------------------------------

/-- No `let` and no shorthand that may come to be evaluated is well formed. -/
inductive Core : Expr → Prop
  | symbol (name) : Core (.symbol name)
  | number (value) : Core (.number value)
  | empty : Core (.list [])
  | miscounted (kind operands) (refused : ¬ kind.arity.Admits operands.length)
    : Core (form kind operands)
  | conditional {test yes no} (first : Core test) (second : Core yes) (third : Core no)
    : Core (form .conditional [test, yes, no])
  | define (name) {body} (inside : Core body) : Core (form .definition [.symbol name, body])
  | shorthandParameter (name parameters) {found} (rest body)
    (noSymbol : ∀ name, found ≠ .symbol name)
    : Core (form .definition [.list (.symbol name :: (symbols parameters ++ found :: rest)), body])
  | defineTarget {target} (body) (noSymbol : ∀ name, target ≠ .symbol name)
    (noShorthand : ∀ name rest, target ≠ .list (.symbol name :: rest))
    : Core (form .definition [target, body])
  | lambda (parameters) {body} (inside : Core body)
    : Core (form .lambda [.list (symbols parameters), body])
  | lambdaParameter (parameters) {found} (rest body) (noSymbol : ∀ name, found ≠ .symbol name)
    : Core (form .lambda [.list (symbols parameters ++ found :: rest), body])
  | parameterList {found} (body) (noList : ∀ items, found ≠ .list items)
    : Core (form .lambda [found, body])
  | letBinding {bounds : List (String × Expr)} {found} (rest body)
    (inside : ∀ bound ∈ bounds, Core bound.2) (noBinding : ∀ bound, found ≠ binding bound)
    : Core (form .letIn [.list (bindings bounds ++ found :: rest), body])
  | bindingList {found} (body) (noList : ∀ items, found ≠ .list items)
    : Core (form .letIn [found, body])
  | application {items : List Expr} (inside : ∀ item ∈ items, Core item)
    (applied : ∀ kind operands, items ≠ .symbol (SpecialForm.keyword kind) :: operands)
    : Core (.list items)

theorem sizeOf_item {item : Expr} {items : List Expr} (member : item ∈ items)
    : sizeOf item < sizeOf (Expr.list items) := by
  have smaller := List.sizeOf_lt_of_mem member
  simp only [Expr.list.sizeOf_spec]
  omega

theorem sizeOf_operand {operand : Expr} {operands : List Expr} (member : operand ∈ operands)
    (kind : SpecialForm)
    : sizeOf operand < sizeOf (form kind operands) :=
  sizeOf_item (List.mem_cons_of_mem _ member)

theorem sizeOf_bound {bound : String × Expr} {bounds : List (String × Expr)}
    (member : bound ∈ bounds) (rest : List Expr) (body : Expr)
    : sizeOf bound.2 < sizeOf (form .letIn [.list (bindings bounds ++ rest), body]) := by
  have within : sizeOf bound.2 < sizeOf (binding bound) :=
    sizeOf_item (List.mem_cons_of_mem _ List.mem_cons_self)
  have listed : sizeOf (binding bound) < sizeOf (Expr.list (bindings bounds ++ rest)) :=
    sizeOf_item (List.mem_append_left _ (List.mem_map_of_mem member))
  exact Nat.lt_trans within (Nat.lt_trans listed (sizeOf_operand List.mem_cons_self _))

/-- What is rewritten holds nothing more to rewrite, by induction on the size of the expression. -/
theorem core_desugar (expr : Expr) : Core (desugar expr) := by
  induction size : sizeOf expr using Nat.strongRecOn generalizing expr with
  | ind size ih =>
      subst size
      have inside {part : Expr} (smaller : sizeOf part < sizeOf expr) : Core (desugar part) :=
        ih _ smaller part rfl
      cases expr.shape with
      | symbol name => exact .symbol name
      | number value => exact .number value
      | empty => exact .empty
      | miscounted kind operands refused =>
          rw [desugar_miscounted refused]
          exact .miscounted kind operands refused
      | conditional test yes no =>
          exact .conditional (inside (sizeOf_operand (by simp) _))
            (inside (sizeOf_operand (by simp) _)) (inside (sizeOf_operand (by simp) _))
      | define name body => exact .define name (inside (sizeOf_operand (by simp) _))
      | shorthand name parameters body =>
          rw [desugar_shorthand]
          exact .define name (.lambda parameters (inside (sizeOf_operand (by simp) _)))
      | shorthandParameter name parameters found rest body noSymbol =>
          rw [desugar_shorthandParameter name parameters noSymbol]
          exact .shorthandParameter name parameters rest body noSymbol
      | defineTarget target body noSymbol noShorthand =>
          rw [desugar_defineTarget noSymbol noShorthand]
          exact .defineTarget body noSymbol noShorthand
      | lambda parameters body =>
          rw [desugar_lambda]
          exact .lambda parameters (inside (sizeOf_operand (by simp) _))
      | lambdaParameter parameters found rest body noSymbol =>
          rw [desugar_lambdaParameter parameters noSymbol]
          exact .lambdaParameter parameters rest body noSymbol
      | parameterList found body noList =>
          rw [desugar_parameterList noList]
          exact .parameterList body noList
      | letIn bounds body =>
          rw [desugar_letIn]
          refine .application (List.forall_mem_cons.mpr ⟨?_, List.forall_mem_map.mpr ?_⟩) nofun
          · exact .lambda _ (inside (sizeOf_operand (by simp) _))
          · intro bound member
            exact inside (List.append_nil (bindings bounds) ▸ sizeOf_bound member [] body)
      | letBinding bounds found rest body noBinding =>
          rw [desugar_letBinding bounds noBinding]
          refine .letBinding rest body (List.forall_mem_map.mpr fun bound member => ?_) noBinding
          exact inside (sizeOf_bound member _ body)
      | bindingList found body noList =>
          rw [desugar_bindingList noList]
          exact .bindingList body noList
      | application head operands applied =>
          rw [desugar_application applied]
          refine .application (List.forall_mem_map.mpr fun item member =>
            inside (sizeOf_item member)) fun kind operands same => ?_
          -- The rewritten head would be a keyword, while rewriting makes and removes no keyword.
          have heads := (ofHead?_desugar head).trans applied
          rw [(List.cons.inj same).1] at heads
          exact Option.some_ne_none kind ((SpecialForm.ofKeyword?_keyword kind).symm.trans heads)

end MiniLisp.Expr
