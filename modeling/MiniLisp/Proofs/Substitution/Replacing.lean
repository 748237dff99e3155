import MiniLisp.Proofs.Evaluation.Forms

/-! Replacing a name by a number in an expression.
The name is replaced where it would be looked up in the scope of the expression: not in bodies that
bind it anew, and not in what is never evaluated.
-/

namespace MiniLisp.Expr

section Replacing

variable (name : String) (value : Integer)

mutual

/-- The expression with a number for a name, wherever the name may come to be evaluated and is not
bound by a parameter or `let` on the way there.
-/
def substitute : Expr → Expr
  | .symbol other => if other = name then .number value else .symbol other
  | .number constant => .number constant
  | .list (head :: operands) =>
      match SpecialForm.ofHead? head with
      | some kind => substituteForm kind operands
      | none => .list (substitute head :: substituteAll operands)
  | .list [] => .list []
termination_by structural expr => expr

/-- A special form with a number for a name. A form of the wrong operand count, or with a malformed
parameter, evaluates none of its operands, and a `let` none behind the first malformed binding.
-/
def substituteForm : SpecialForm → List Expr → Expr
  | .conditional, [test, yes, no] =>
      form .conditional [substitute test, substitute yes, substitute no]
  | .definition, [.symbol target, body] => form .definition [.symbol target, substitute body]
  | .definition, [.list (.symbol target :: parameters), body] =>
      match Eval.parameterNames parameters with
      | .ok names =>
          form .definition [.list (.symbol target :: parameters),
            if name ∈ names then body else substitute body]
      | .error _ => form .definition [.list (.symbol target :: parameters), body]
  | .lambda, [.list parameters, body] =>
      match Eval.parameterNames parameters with
      | .ok names =>
          form .lambda [.list parameters, if name ∈ names then body else substitute body]
      | .error _ => form .lambda [.list parameters, body]
  | .letIn, [.list items, body] =>
      match substituteBindings items with
      | (bounds, []) =>
          form .letIn [.list (bindings bounds),
            if name ∈ bounds.map (·.1) then body else substitute body]
      | (bounds, rest) => form .letIn [.list (bindings bounds ++ rest), body]
  | kind, operands => form kind operands
termination_by structural _ operands => operands

/-- The well-formed bindings that come first, with a number for a name, and the rest. -/
def substituteBindings : List Expr → List (String × Expr) × List Expr
  | .list [.symbol bound, expr] :: rest =>
      ((bound, substitute expr) :: (substituteBindings rest).1, (substituteBindings rest).2)
  | rest => ([], rest)
termination_by structural items => items

/-- Expressions that are evaluated one after the other, with a number for a name. -/
def substituteAll : List Expr → List Expr
  | [] => []
  | expr :: rest => substitute expr :: substituteAll rest
termination_by structural exprs => exprs

end

/-- A body evaluated where these names are bound anew. -/
def substituteUnder (parameters : List String) (body : Expr) : Expr :=
  if name ∈ parameters then body else substitute name value body

/-- A bound name with its expression, in which a number stands for a name. -/
def substituteBound (bound : String × Expr) : String × Expr :=
  (bound.1, substitute name value bound.2)

-----------------------------------------------------------------------------------------
-- What becomes of each shape
-----------------------------------------------------------------------------------------

variable {name value}

theorem substitute_symbol_self : substitute name value (.symbol name) = .number value := by
  rw [substitute, if_pos rfl]

theorem substitute_symbol_other {other : String} (differs : other ≠ name)
    : substitute name value (.symbol other) = .symbol other := by
  rw [substitute, if_neg differs]

theorem substituteAll_eq_map (exprs : List Expr)
    : substituteAll name value exprs = exprs.map (substitute name value) := by
  induction exprs with
  | nil => rfl
  | cons expr rest ih => rw [substituteAll, ih, List.map_cons]

/-- Bindings are gone through up to the first that is malformed, by induction on those before it. -/
theorem substituteBindings_append (bounds : List (String × Expr)) {rest : List Expr}
    (ends : substituteBindings name value rest = ([], rest))
    : substituteBindings name value (bindings bounds ++ rest)
      = (bounds.map (substituteBound name value), rest) := by
  induction bounds with
  | nil => exact ends
  | cons bound _ ih =>
      simp only [bindings, List.map_cons, List.cons_append, binding, substituteBindings] at ih ⊢
      rw [ih, substituteBound]

theorem substituteBindings_first {found : Expr} (noBinding : ∀ bound, found ≠ binding bound)
    (rest : List Expr)
    : substituteBindings name value (found :: rest) = ([], found :: rest) := by
  rw [substituteBindings]
  intro bound expr rest' same
  exact noBinding (bound, expr) (List.cons.inj same).1

theorem substitute_form (kind : SpecialForm) (operands : List Expr)
    : substitute name value (form kind operands) = substituteForm name value kind operands := by
  simp only [form, substitute, SpecialForm.ofHead?, SpecialForm.ofKeyword?_keyword]

theorem substitute_conditional (test yes no : Expr)
    : substitute name value (form .conditional [test, yes, no])
      = form .conditional
          [substitute name value test, substitute name value yes, substitute name value no] :=
  substitute_form ..

theorem substitute_define (target : String) (body : Expr)
    : substitute name value (form .definition [.symbol target, body])
      = form .definition [.symbol target, substitute name value body] :=
  substitute_form ..

theorem substitute_shorthand (target : String) (parameters : List String) (body : Expr)
    : substitute name value
          (form .definition [.list (.symbol target :: symbols parameters), body])
      = form .definition [.list (.symbol target :: symbols parameters),
          substituteUnder name value parameters body] := by
  simp only [substitute_form, substituteForm, Eval.parameterNames_symbols, substituteUnder]

theorem substitute_lambda (parameters : List String) (body : Expr)
    : substitute name value (form .lambda [.list (symbols parameters), body])
      = form .lambda [.list (symbols parameters), substituteUnder name value parameters body] := by
  simp only [substitute_form, substituteForm, Eval.parameterNames_symbols, substituteUnder]

theorem substitute_letIn (bounds : List (String × Expr)) (body : Expr)
    : substitute name value (form .letIn [.list (bindings bounds), body])
      = form .letIn [.list (bindings (bounds.map (substituteBound name value))),
          substituteUnder name value (bounds.map (·.1)) body] := by
  have split
      : substituteBindings name value (bindings bounds)
        = (bounds.map (substituteBound name value), []) := by
    rw [← List.append_nil (bindings bounds)]
    exact substituteBindings_append bounds rfl
  simp only [substitute_form, substituteForm, split, List.map_map, substituteUnder]
  rfl

theorem substitute_letBinding (bounds : List (String × Expr)) {found : Expr}
    (noBinding : ∀ bound, found ≠ binding bound) (rest : List Expr) (body : Expr)
    : substitute name value (form .letIn [.list (bindings bounds ++ found :: rest), body])
      = form .letIn
          [.list (bindings (bounds.map (substituteBound name value)) ++ found :: rest), body] := by
  simp only [substitute_form, substituteForm,
    substituteBindings_append bounds (substituteBindings_first noBinding rest)]

theorem substitute_application {head : Expr} (applied : SpecialForm.ofHead? head = none)
    (operands : List Expr)
    : substitute name value (.list (head :: operands))
      = .list ((head :: operands).map (substitute name value)) := by
  simp only [substitute, applied, substituteAll_eq_map, List.map_cons]

/-- `x` is replaced as an operand and as a test, but not under a parameter of that name. -/
example
    : substitute "x" .one
        (.list [.symbol "f", .symbol "x", form .lambda [.list [.symbol "x"], .symbol "x"],
          form .conditional [.symbol "x", .symbol "y", .symbol "z"]])
      = .list [.symbol "f", .number .one, form .lambda [.list [.symbol "x"], .symbol "x"],
          form .conditional [.number .one, .symbol "y", .symbol "z"]] :=
  rfl

-----------------------------------------------------------------------------------------
-- Malformed forms
-----------------------------------------------------------------------------------------

theorem substitute_miscounted {kind : SpecialForm} {operands : List Expr}
    (refused : ¬ kind.arity.Admits operands.length)
    : substitute name value (form kind operands) = form kind operands := by
  rw [substitute_form]
  unfold substituteForm
  split
  · exact absurd (Arity.exactly_admits_iff.mpr rfl) refused
  · exact absurd (Arity.exactly_admits_iff.mpr rfl) refused
  · exact absurd (Arity.exactly_admits_iff.mpr rfl) refused
  · exact absurd (Arity.exactly_admits_iff.mpr rfl) refused
  · exact absurd (Arity.exactly_admits_iff.mpr rfl) refused
  · rfl

theorem substitute_shorthandParameter (target : String) (parameters : List String) {found : Expr}
    (noSymbol : ∀ name, found ≠ .symbol name) (rest : List Expr) (body : Expr)
    : substitute name value (form .definition
          [.list (.symbol target :: (symbols parameters ++ found :: rest)), body])
      = form .definition
          [.list (.symbol target :: (symbols parameters ++ found :: rest)), body] := by
  simp only [substitute_form, substituteForm, Eval.parameterNames_first parameters noSymbol]

theorem substitute_defineTarget {target : Expr} (noSymbol : ∀ name, target ≠ .symbol name)
    (noShorthand : ∀ name rest, target ≠ .list (.symbol name :: rest)) (body : Expr)
    : substitute name value (form .definition [target, body]) = form .definition [target, body] := by
  rw [substitute_form]
  cases target with
  | symbol target => exact absurd rfl (noSymbol target)
  | number _ => rfl
  | list items =>
      rcases items with _ | ⟨head, rest⟩
      · rfl
      · cases head with
        | symbol target => exact absurd rfl (noShorthand target rest)
        | number _ | list _ => rfl

theorem substitute_lambdaParameter (parameters : List String) {found : Expr}
    (noSymbol : ∀ name, found ≠ .symbol name) (rest : List Expr) (body : Expr)
    : substitute name value (form .lambda [.list (symbols parameters ++ found :: rest), body])
      = form .lambda [.list (symbols parameters ++ found :: rest), body] := by
  simp only [substitute_form, substituteForm, Eval.parameterNames_first parameters noSymbol]

theorem substitute_parameterList {found : Expr} (noList : ∀ items, found ≠ .list items)
    (body : Expr)
    : substitute name value (form .lambda [found, body]) = form .lambda [found, body] := by
  rw [substitute_form]
  cases found with
  | list items => exact absurd rfl (noList items)
  | symbol _ | number _ => rfl

theorem substitute_bindingList {found : Expr} (noList : ∀ items, found ≠ .list items) (body : Expr)
    : substitute name value (form .letIn [found, body]) = form .letIn [found, body] := by
  rw [substitute_form]
  cases found with
  | list items => exact absurd rfl (noList items)
  | symbol _ | number _ => rfl

-----------------------------------------------------------------------------------------
-- Heads
-----------------------------------------------------------------------------------------

/-- No special form becomes a keyword, by cases on the form. -/
theorem ofHead?_substituteForm (kind : SpecialForm) (operands : List Expr)
    : SpecialForm.ofHead? (substituteForm name value kind operands) = none := by
  unfold substituteForm
  split
  · rfl
  · rfl
  · split <;> rfl
  · split <;> rfl
  · split <;> rfl
  · rfl

/-- No keyword comes out that was not there, by cases on the expression. -/
theorem ofHead?_substitute {head : Expr} (applied : SpecialForm.ofHead? head = none)
    : SpecialForm.ofHead? (substitute name value head) = none := by
  cases head with
  | symbol other =>
      rw [substitute]
      split
      · rfl
      · exact applied
  | number _ => rfl
  | list items =>
      rcases items with _ | ⟨first, operands⟩
      · rfl
      · rw [substitute]
        split
        · exact ofHead?_substituteForm _ _
        · rfl

end Replacing

-----------------------------------------------------------------------------------------
-- Definitions
-----------------------------------------------------------------------------------------

/-- Nowhere in the expression stands a definition, plain or shorthand, that has the name as its
target.
-/
inductive NeverDefines (name : String) : Expr → Prop
  | symbol (other) : NeverDefines name (.symbol other)
  | number (value) : NeverDefines name (.number value)
  | list {items} (each : ∀ item ∈ items, NeverDefines name item)
    (noPlain : ∀ body, Expr.list items ≠ form .definition [.symbol name, body])
    (noShorthand
      : ∀ parameters body,
          Expr.list items ≠ form .definition [.list (.symbol name :: parameters), body])
    : NeverDefines name (.list items)

section Definitions

variable {name : String}

theorem NeverDefines.item {items : List Expr} (never : NeverDefines name (.list items))
    : ∀ item ∈ items, NeverDefines name item := by
  cases never with
  | list each => exact each

theorem NeverDefines.operand {kind : SpecialForm} {operands : List Expr}
    (never : NeverDefines name (form kind operands))
    : ∀ operand ∈ operands, NeverDefines name operand :=
  fun operand member => never.item operand (List.mem_cons_of_mem _ member)

theorem NeverDefines.target_ne {target : String} {body : Expr}
    (never : NeverDefines name (form .definition [.symbol target, body]))
    : target ≠ name := by
  rintro rfl
  cases never with
  | list _ noPlain => exact noPlain body rfl

theorem NeverDefines.shorthand_ne {target : String} {parameters : List Expr} {body : Expr}
    (never : NeverDefines name (form .definition [.list (.symbol target :: parameters), body]))
    : target ≠ name := by
  rintro rfl
  cases never with
  | list _ _ noShorthand => exact noShorthand parameters body rfl

/-- The expressions that are bound in a `let` define the name nowhere if the `let` does not. -/
theorem NeverDefines.bound {bounds : List (String × Expr)} {rest : List Expr} {body : Expr}
    (never : NeverDefines name (form .letIn [.list (bindings bounds ++ rest), body]))
    : ∀ bound ∈ bounds, NeverDefines name bound.2 := by
  intro bound member
  have items := (never.operand _ List.mem_cons_self).item
  have listed : binding bound ∈ bindings bounds ++ rest :=
    List.mem_append_left _ (List.mem_map_of_mem member)
  exact (items _ listed).item _ (List.mem_cons_of_mem _ List.mem_cons_self)

end Definitions

end MiniLisp.Expr
