import MiniLisp.Proofs.Renaming.Names
import MiniLisp.Proofs.Simulation.Congruence

/-! An expression and what a change of names makes of it have one shape. -/

namespace MiniLisp

open MiniLisp.Expr

/-- Complaints about malformed operands in the same place of the same special form. -/
inductive Malformed.SameKind : Malformed → Malformed → Prop
  | defineTarget (found found') : SameKind (.defineTarget found) (.defineTarget found')
  | parameterList (found found') : SameKind (.parameterList found) (.parameterList found')
  | parameter (found found') : SameKind (.parameter found) (.parameter found')
  | bindingList (found found') : SameKind (.bindingList found) (.bindingList found')
  | binding (found found') : SameKind (.binding found) (.binding found')

/-- A change of names that code of one mode corresponds by, as long as a name that is meant to be
new does not stand in it.
-/
structure Correspondence.Renames (c : Correspondence) (mode : c.Mode) (rename : String → String)
    (fresh : String)
    : Prop where
  keywords : KeepsKeywords rename
  names : ∀ {name}, name ≠ fresh → c.names mode name (rename name)
  code : ∀ {expr}, Avoids fresh expr → c.code mode expr (mapNames rename expr)
  procedures
    : ∀ {parameters body},
        fresh ∉ parameters
        → Avoids fresh body
        → c.procedures mode parameters body (parameters.map rename) (mapNames rename body)
  malformed : ∀ {left right}, Malformed.SameKind left right → c.malformed left right

namespace Correspondence.Renames

variable {c : Correspondence} {mode : c.Mode} {rename : String → String} {fresh : String}
  (renames : c.Renames mode rename fresh)

include renames

theorem forall₂ {exprs : List Expr} (avoid : ∀ expr ∈ exprs, Avoids fresh expr)
    : List.Forall₂ (c.code mode) exprs (exprs.map (mapNames rename)) := by
  rw [List.forall₂_map_right_iff, List.forall₂_same]
  exact fun expr member => renames.code (avoid expr member)

theorem forall₂_bounds {bounds : List (String × Expr)}
    (avoid : ∀ bound ∈ bounds, Avoids fresh bound.2)
    : List.Forall₂ (c.code mode) (bounds.map (·.2)) ((bounds.map (mapBound rename)).map (·.2)) := by
  rw [List.map_map, List.forall₂_map_left_iff, List.forall₂_map_right_iff, List.forall₂_same]
  exact fun bound member => renames.code (avoid bound member)

theorem procedures_bounds {bounds : List (String × Expr)} {body : Expr}
    (absent : fresh ∉ bounds.map (·.1)) (avoids : Avoids fresh body)
    : c.procedures mode (bounds.map (·.1)) body ((bounds.map (mapBound rename)).map (·.1))
        (mapNames rename body) := by
  have names : (bounds.map (mapBound rename)).map (·.1) = (bounds.map (·.1)).map rename := by
    rw [List.map_map, List.map_map]
    rfl
  exact names ▸ renames.procedures absent avoids

/-- The shape stays what it is, by cases on it. -/
theorem congruent {expr : Expr} (avoids : Avoids fresh expr)
    : c.Congruent mode expr (mapNames rename expr) := by
  have keeps := renames.keywords
  cases expr.shape with
  | symbol name => exact .symbol (renames.names (avoids_symbol_iff.mp avoids))
  | number value => exact .number value
  | empty => exact .empty
  | miscounted kind operands refused =>
      rw [keeps.mapNames_form]
      exact .miscounted kind refused (List.length_map _).symm
  | conditional test yes no =>
      obtain ⟨_, first, second, third⟩
        : _ ∧ Avoids fresh test ∧ Avoids fresh yes ∧ Avoids fresh no := by simpa using avoids
      rw [keeps.mapNames_form]
      exact .conditional (renames.code first) (renames.code second) (renames.code third)
  | define name body =>
      obtain ⟨_, name, body⟩ : _ ∧ name ≠ fresh ∧ Avoids fresh body := by simpa using avoids
      rw [keeps.mapNames_form]
      exact .define (renames.names name) (renames.code body)
  | shorthand name parameters body =>
      obtain ⟨_, ⟨name, parameters⟩, body⟩
        : _ ∧ (name ≠ fresh ∧ fresh ∉ parameters) ∧ Avoids fresh body := by simpa using avoids
      rw [keeps.mapNames_form, List.map_cons, mapNames_list, List.map_cons, map_symbols]
      exact .shorthand (renames.names name) (renames.procedures parameters body)
  | shorthandParameter name parameters found rest body noSymbol =>
      rw [keeps.mapNames_form, List.map_cons, mapNames_list, List.map_cons, List.map_append,
        map_symbols, List.map_cons]
      refine .shorthandParameter noSymbol (fun name same => ?_) (renames.malformed (.parameter _ _))
      obtain ⟨name, rfl⟩ := symbol_of_mapNames same
      exact noSymbol name rfl
  | defineTarget target body noSymbol noShorthand =>
      rw [keeps.mapNames_form]
      refine .defineTarget noSymbol noShorthand (fun name same => ?_) (fun name rest same => ?_)
        (renames.malformed (.defineTarget _ _))
      · obtain ⟨name, rfl⟩ := symbol_of_mapNames same
        exact noSymbol name rfl
      · obtain ⟨name, rest, rfl⟩ := shorthand_of_mapNames same
        exact noShorthand name rest rfl
  | lambda parameters body =>
      obtain ⟨_, parameters, body⟩ : _ ∧ fresh ∉ parameters ∧ Avoids fresh body := by
        simpa using avoids
      rw [keeps.mapNames_form, List.map_cons, mapNames_list, map_symbols]
      exact .lambda (renames.procedures parameters body)
  | lambdaParameter parameters found rest body noSymbol =>
      rw [keeps.mapNames_form, List.map_cons, mapNames_list, List.map_append, map_symbols,
        List.map_cons]
      refine .lambdaParameter noSymbol (fun name same => ?_) (renames.malformed (.parameter _ _))
      obtain ⟨name, rfl⟩ := symbol_of_mapNames same
      exact noSymbol name rfl
  | parameterList found body noList =>
      rw [keeps.mapNames_form]
      refine .parameterList noList (fun items same => ?_) (renames.malformed (.parameterList _ _))
      obtain ⟨items, rfl, _⟩ := list_of_mapNames same
      exact noList items rfl
  | letIn bounds body =>
      obtain ⟨_, ⟨names, values⟩, body⟩
        : _ ∧ (fresh ∉ bounds.map (·.1) ∧ ∀ bound ∈ bounds, Avoids fresh bound.2)
          ∧ Avoids fresh body := by simpa using avoids
      rw [keeps.mapNames_form, List.map_cons, mapNames_list, map_bindings]
      exact .letIn (renames.forall₂_bounds values) (renames.procedures_bounds names body)
  | letBinding bounds found rest body noBinding =>
      obtain ⟨_, operands⟩ := avoids_form_iff.mp avoids
      have items := avoids_list_iff.mp (operands _ List.mem_cons_self)
      have body := operands body (List.mem_cons_of_mem _ List.mem_cons_self)
      obtain ⟨names, values⟩ := forall_mem_bindings_iff.mp (List.forall_mem_append.mp items).1
      rw [keeps.mapNames_form, List.map_cons, mapNames_list, List.map_append, map_bindings,
        List.map_cons]
      refine .letBinding (renames.forall₂_bounds values) (renames.procedures_bounds names body)
        noBinding (fun bound same => ?_) (renames.malformed (.binding _ _))
      obtain ⟨bound, rfl⟩ := binding_of_mapNames same
      exact noBinding bound rfl
  | bindingList found body noList =>
      rw [keeps.mapNames_form]
      refine .bindingList noList (fun items same => ?_) (renames.malformed (.bindingList _ _))
      obtain ⟨items, rfl, _⟩ := list_of_mapNames same
      exact noList items rfl
  | application head operands applied =>
      rw [mapNames_list, List.map_cons]
      exact .application applied ((keeps.ofHead?_mapNames head).trans applied)
        (renames.forall₂ (avoids_list_iff.mp avoids))

end Correspondence.Renames

end MiniLisp
