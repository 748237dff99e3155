import MiniLisp.Proofs.Evaluation.Forms

/-! The names in an expression, and other names in their place.
A change of names that leaves keywords and other names apart leaves every expression its shape.
-/

namespace MiniLisp.Expr

/-- The name stands nowhere in the expression. -/
inductive Avoids (name : String) : Expr → Prop
  | symbol {other} (differs : other ≠ name) : Avoids name (.symbol other)
  | number (value) : Avoids name (.number value)
  | list {items} (each : ∀ item ∈ items, Avoids name item) : Avoids name (.list items)

@[simp]
theorem avoids_symbol_iff {name other : String} : Avoids name (.symbol other) ↔ other ≠ name := by
  constructor
  · intro avoids
    cases avoids with
    | symbol differs => exact differs
  · exact .symbol

@[simp]
theorem avoids_list_iff {name : String} {items : List Expr}
    : Avoids name (.list items) ↔ ∀ item ∈ items, Avoids name item := by
  constructor
  · intro avoids
    cases avoids with
    | list each => exact each
  · exact .list

@[simp]
theorem avoids_form_iff {name : String} {kind : SpecialForm} {operands : List Expr}
    : Avoids name (form kind operands)
      ↔ kind.keyword ≠ name ∧ ∀ operand ∈ operands, Avoids name operand := by
  rw [form, avoids_list_iff, List.forall_mem_cons, avoids_symbol_iff]

@[simp]
theorem forall_mem_symbols_iff {name : String} {names : List String}
    : (∀ item ∈ symbols names, Avoids name item) ↔ name ∉ names := by
  simp only [symbols, List.forall_mem_map, avoids_symbol_iff]
  exact List.forall_mem_ne'

@[simp]
theorem forall_mem_bindings_iff {name : String} {bounds : List (String × Expr)}
    : (∀ item ∈ bindings bounds, Avoids name item)
      ↔ name ∉ bounds.map (·.1) ∧ ∀ bound ∈ bounds, Avoids name bound.2 := by
  rw [← List.forall_mem_ne', List.forall_mem_map, ← forall₂_and]
  simp only [bindings, List.forall_mem_map, binding, avoids_list_iff, List.forall_mem_cons,
    avoids_symbol_iff, List.not_mem_nil, IsEmpty.forall_iff, implies_true, and_true, ne_eq]

mutual

/-- The expression with another name for each of its names. -/
def mapNames (rename : String → String) : Expr → Expr
  | .symbol name => .symbol (rename name)
  | .number value => .number value
  | .list items => .list (mapAllNames rename items)
termination_by structural expr => expr

/-- The expressions with another name for each of their names. -/
def mapAllNames (rename : String → String) : List Expr → List Expr
  | [] => []
  | expr :: rest => mapNames rename expr :: mapAllNames rename rest
termination_by structural exprs => exprs

end

/-- A name with its expression, both with other names. -/
def mapBound (rename : String → String) (bound : String × Expr) : String × Expr :=
  (rename bound.1, mapNames rename bound.2)

section Renamed

variable (rename : String → String)

theorem mapAllNames_eq_map (exprs : List Expr)
    : mapAllNames rename exprs = exprs.map (mapNames rename) := by
  induction exprs with
  | nil => rfl
  | cons expr rest ih => rw [mapAllNames, ih, List.map_cons]

theorem mapNames_list (items : List Expr)
    : mapNames rename (.list items) = .list (items.map (mapNames rename)) := by
  rw [mapNames, mapAllNames_eq_map]

theorem map_symbols (names : List String)
    : (symbols names).map (mapNames rename) = symbols (names.map rename) := by
  simp only [symbols, List.map_map]
  rfl

theorem map_bindings (bounds : List (String × Expr))
    : (bindings bounds).map (mapNames rename) = bindings (bounds.map (mapBound rename)) := by
  simp only [bindings, List.map_map]
  rfl

mutual

/-- With each name for itself, an expression is what it was, by induction on its items. -/
theorem mapNames_id : ∀ expr : Expr, mapNames id expr = expr
  | .symbol _ => rfl
  | .number _ => rfl
  | .list items => congrArg Expr.list (mapAllNames_id items)

theorem mapAllNames_id : ∀ exprs : List Expr, mapAllNames id exprs = exprs
  | [] => rfl
  | expr :: rest => congrArg₂ List.cons (mapNames_id expr) (mapAllNames_id rest)

end

variable {rename}

theorem symbol_of_mapNames {expr : Expr} {name : String}
    (same : mapNames rename expr = .symbol name)
    : ∃ name, expr = .symbol name := by
  cases expr with
  | symbol name => exact ⟨name, rfl⟩
  | number _ | list _ => cases same

theorem list_of_mapNames {expr : Expr} {items : List Expr}
    (same : mapNames rename expr = .list items)
    : ∃ items', expr = .list items' ∧ items'.map (mapNames rename) = items := by
  cases expr with
  | list items' =>
      rw [mapNames_list] at same
      exact ⟨items', rfl, Expr.list.inj same⟩
  | symbol _ | number _ => cases same

theorem shorthand_of_mapNames {expr : Expr} {name : String} {rest : List Expr}
    (same : mapNames rename expr = .list (.symbol name :: rest))
    : ∃ name rest, expr = .list (.symbol name :: rest) := by
  obtain ⟨items, rfl, mapped⟩ := list_of_mapNames same
  obtain ⟨head, rest, rfl, first, _⟩ := List.map_eq_cons_iff.mp mapped
  obtain ⟨name, rfl⟩ := symbol_of_mapNames first
  exact ⟨name, rest, rfl⟩

theorem binding_of_mapNames {expr : Expr} {bound : String × Expr}
    (same : mapNames rename expr = binding bound)
    : ∃ bound, expr = binding bound := by
  obtain ⟨items, rfl, mapped⟩ := list_of_mapNames same
  obtain ⟨head, rest, rfl, first, mapped⟩ := List.map_eq_cons_iff.mp mapped
  obtain ⟨value, none, rfl, _, mapped⟩ := List.map_eq_cons_iff.mp mapped
  obtain rfl := List.map_eq_nil_iff.mp mapped
  obtain ⟨name, rfl⟩ := symbol_of_mapNames first
  exact ⟨(name, value), rfl⟩

end Renamed

/-- The change of names leaves keywords what they are, and makes no others. -/
def KeepsKeywords (rename : String → String) : Prop :=
  ∀ name, SpecialForm.ofKeyword? (rename name) = SpecialForm.ofKeyword? name

namespace KeepsKeywords

variable {rename : String → String} (keeps : KeepsKeywords rename)

include keeps

theorem mapNames_form (kind : SpecialForm) (operands : List Expr)
    : mapNames rename (form kind operands) = form kind (operands.map (mapNames rename)) := by
  have keyword : kind.keyword = rename kind.keyword := by
    rw [← SpecialForm.ofKeyword?_eq_some_iff, keeps, SpecialForm.ofKeyword?_keyword]
  rw [form, mapNames_list, List.map_cons, mapNames, ← keyword, form]

theorem ofHead?_mapNames (expr : Expr)
    : SpecialForm.ofHead? (mapNames rename expr) = SpecialForm.ofHead? expr := by
  cases expr with
  | symbol name => exact keeps name
  | number _ | list _ => rfl

end KeepsKeywords

/-- One name in the place of another. -/
def replaceName (old new : String) (name : String) : String :=
  if name = old then new else name

/-- Renaming tells names other than the new one apart as they were. -/
theorem replaceName_inj {old new name other : String} (notNew : name ≠ new) (notNew' : other ≠ new)
    : name = other ↔ replaceName old new name = replaceName old new other := by
  refine ⟨congrArg _, fun same => ?_⟩
  unfold replaceName at same
  split at same <;> split at same
  · next first second => exact first.trans second.symm
  · exact absurd same.symm notNew'
  · exact absurd same notNew
  · exact same

@[simp]
theorem replaceName_of_ne {old new name : String} (differs : name ≠ old)
    : replaceName old new name = name :=
  if_neg differs

theorem keepsKeywords_replaceName {old new : String} (plain : SpecialForm.ofKeyword? old = none)
    (plain' : SpecialForm.ofKeyword? new = none)
    : KeepsKeywords (replaceName old new) := by
  intro name
  unfold replaceName
  split
  · next same => rw [same, plain, plain']
  · rfl

/-- One `lambda`, shorthand or well-formed `let` that binds the old name, at a place where
expressions are evaluated, has the new name for it: among the names that it binds and everywhere in
its body, but neither in the expressions of a `let` nor as the name that a shorthand defines.
-/
inductive RenamedForm (old new : String) : Expr → Expr → Prop
  | lambda {parameters} (bound : old ∈ parameters) (body)
    : RenamedForm old new (form .lambda [.list (symbols parameters), body])
        (form .lambda [.list (symbols (parameters.map (replaceName old new))),
          mapNames (replaceName old new) body])
  | shorthand (name) {parameters} (bound : old ∈ parameters) (body)
    : RenamedForm old new (form .definition [.list (.symbol name :: symbols parameters), body])
        (form .definition
          [.list (.symbol name :: symbols (parameters.map (replaceName old new))),
            mapNames (replaceName old new) body])
  | letIn {bounds : List (String × Expr)} (bound : old ∈ bounds.map (·.1)) (body)
    : RenamedForm old new (form .letIn [.list (bindings bounds), body])
        (form .letIn
          [.list (bindings (bounds.map fun bound => (replaceName old new bound.1, bound.2))),
            mapNames (replaceName old new) body])
  | test {test test'} (inside : RenamedForm old new test test') (yes no)
    : RenamedForm old new (form .conditional [test, yes, no]) (form .conditional [test', yes, no])
  | yes (test) {yes yes'} (inside : RenamedForm old new yes yes') (no)
    : RenamedForm old new (form .conditional [test, yes, no]) (form .conditional [test, yes', no])
  | no (test yes) {no no'} (inside : RenamedForm old new no no')
    : RenamedForm old new (form .conditional [test, yes, no]) (form .conditional [test, yes, no'])
  | defined (name) {body body'} (inside : RenamedForm old new body body')
    : RenamedForm old new (form .definition [.symbol name, body])
        (form .definition [.symbol name, body'])
  | shorthandBody (name parameters) {body body'} (inside : RenamedForm old new body body')
    : RenamedForm old new (form .definition [.list (.symbol name :: symbols parameters), body])
        (form .definition [.list (.symbol name :: symbols parameters), body'])
  | lambdaBody (parameters) {body body'} (inside : RenamedForm old new body body')
    : RenamedForm old new (form .lambda [.list (symbols parameters), body])
        (form .lambda [.list (symbols parameters), body'])
  | letBody (bounds) {body body'} (inside : RenamedForm old new body body')
    : RenamedForm old new (form .letIn [.list (bindings bounds), body])
        (form .letIn [.list (bindings bounds), body'])
  | binding (front name) {expr expr'} (inside : RenamedForm old new expr expr') (rest body)
    : RenamedForm old new
        (form .letIn [.list (bindings (front ++ [(name, expr)]) ++ rest), body])
        (form .letIn [.list (bindings (front ++ [(name, expr')]) ++ rest), body])
  | callee {head head'} (inside : RenamedForm old new head head') (operands)
    : RenamedForm old new (.list (head :: operands)) (.list (head' :: operands))
  | operand {head} (applied : SpecialForm.ofHead? head = none) (front) {operand operand'}
    (inside : RenamedForm old new operand operand') (back)
    : RenamedForm old new (.list (head :: (front ++ operand :: back)))
        (.list (head :: (front ++ operand' :: back)))

/-- What is renamed is no keyword before and after. -/
theorem RenamedForm.ofHead?_eq_none {old new : String} {expr expr' : Expr}
    (renamed : RenamedForm old new expr expr')
    : SpecialForm.ofHead? expr = none ∧ SpecialForm.ofHead? expr' = none := by
  cases renamed <;> exact ⟨rfl, rfl⟩

end MiniLisp.Expr
