import Mathlib.Data.List.Infix
import MiniLisp.Primitive.Compute

/-! What primitives make of operands that they accept.
Arithmetic is compared with that on unbounded integers: a result is the exact one, and there is one
exactly if nothing on the way to it leaves the range.
-/

namespace MiniLisp

namespace Primitive

/-- What arithmetic is to compute, on unbounded integers. -/
def unbounded? : Primitive → List Int → Option Int
  | add, numbers => some (numbers.foldl (· + ·) 0)
  | mul, numbers => some (numbers.foldl (· * ·) 1)
  | sub, [number] => some (-number)
  | sub, [left, right] => some (left - right)
  | _, _ => none

/-- What arithmetic comes to on unbounded integers, its result and what is on the way to it: a sum
or product is taken from left to right.
-/
def partials : Primitive → List Int → List Int
  | add, numbers => numbers.inits.map (·.foldl (· + ·) 0)
  | mul, numbers => numbers.inits.map (·.foldl (· * ·) 1)
  | primitive, numbers => (primitive.unbounded? numbers).toList

/-- Operands that are integers. -/
def operands (numbers : List Integer) : List Value :=
  numbers.map .integer

/-- The unbounded integers that integers stand for. -/
def values (numbers : List Integer) : List Int :=
  numbers.map Integer.toInt

/-- The outcome is what the primitive is to make of these operands. -/
inductive Computes : Primitive → List Value → Except EvalError Value → Prop
  | exact {primitive numbers result}
    (computed : unbounded? primitive (values numbers) = some result.toInt)
    (fit : ∀ number ∈ partials primitive (values numbers), Integer.Fits number)
    : Computes primitive (operands numbers) (.ok (.integer result))
  | overflow {primitive numbers number} (among : number ∈ partials primitive (values numbers))
    (outside : ¬ Integer.Fits number)
    : Computes primitive (operands numbers) (.error (.overflow primitive))
  | less (left right) : Computes less (operands [left, right]) (.ok (.bool (left.less right)))
  | equal (left right) : Computes equal [left, right] (.ok (.bool (left.same right)))
  | notAnInteger {primitive found} (numbers) (wants : primitive ≠ equal)
    (other : ∀ number, found ≠ .integer number) (rest)
    : Computes primitive (operands numbers ++ found :: rest) (.error (.notAnInteger found))

-----------------------------------------------------------------------------------------
-- Operands as integers
-----------------------------------------------------------------------------------------

theorem integers_operands (numbers : List Integer) : integers (operands numbers) = .ok numbers := by
  induction numbers with
  | nil => rfl
  | cons number rest ih =>
      rw [operands] at ih
      simp [operands, integers, ih, Except.map]

theorem integers_first (numbers : List Integer) {found : Value}
    (other : ∀ number, found ≠ .integer number) (rest : List Value)
    : integers (operands numbers ++ found :: rest) = .error (.notAnInteger found) := by
  induction numbers with
  | nil => cases found <;> simp_all [operands, integers]
  | cons number numbers ih =>
      rw [operands] at ih
      simp [operands, integers, ih, Except.map]

/-- Values are integers, or there is a first that is none. -/
theorem operands_or_first (args : List Value)
    : (∃ numbers, args = operands numbers)
      ∨ ∃ numbers found rest,
          args = operands numbers ++ found :: rest ∧ ∀ number, found ≠ .integer number := by
  induction args with
  | nil => exact .inl ⟨[], rfl⟩
  | cons arg rest ih =>
      by_cases integer : ∃ number, arg = .integer number
      · obtain ⟨number, rfl⟩ := integer
        rcases ih with ⟨numbers, rfl⟩ | ⟨numbers, found, more, rfl, other⟩
        · exact .inl ⟨number :: numbers, rfl⟩
        · exact .inr ⟨number :: numbers, found, more, rfl, other⟩
      · exact .inr ⟨[], arg, rest, rfl, fun number same => integer ⟨number, same⟩⟩

-----------------------------------------------------------------------------------------
-- Sums and products
-----------------------------------------------------------------------------------------

section Folding

variable {operation : Int → Int → Int} {step : Integer → Integer → Option Integer}
  (checked : ∀ left right, step left right = Integer.ofInt? (operation left.toInt right.toInt))

include checked

/-- Integers combined from left to right have a result exactly if everything on the way to it fits,
and then it is the exact one; by induction on the integers.
-/
theorem foldlM_eq_some_iff {start result : Integer} {numbers : List Integer}
    : numbers.foldlM step start = some result
      ↔ (values numbers).foldl operation start.toInt = result.toInt
        ∧ ∀ front ∈ (values numbers).inits, Integer.Fits (front.foldl operation start.toInt) := by
  induction numbers generalizing start with
  | nil =>
      have fits : Integer.Fits start.toInt := ⟨start.lower, start.upper⟩
      simp [values, fits, Integer.toInt_inj]
  | cons number rest ih =>
      have fits : Integer.Fits start.toInt := ⟨start.lower, start.upper⟩
      rw [List.foldlM_cons, checked]
      cases next : Integer.ofInt? (operation start.toInt number.toInt) with
      | none =>
          have outside := Integer.ofInt?_eq_none_iff.mp next
          refine iff_of_false nofun fun ⟨_, each⟩ => outside ?_
          exact each [number.toInt] (by simp [values])
      | some middle =>
          have same := Integer.ofInt?_eq_some_iff.mp next
          simp only [values] at ih
          simp [values, ih, same, fits]

/-- There is no result exactly if something on the way to it does not fit. -/
theorem foldlM_eq_none_iff {start : Integer} {numbers : List Integer}
    : numbers.foldlM step start = none
      ↔ ∃ front ∈ (values numbers).inits, ¬ Integer.Fits (front.foldl operation start.toInt) := by
  constructor
  · intro nothing
    refine Classical.byContradiction fun inside => ?_
    have fit : ∀ front ∈ (values numbers).inits,
        Integer.Fits (front.foldl operation start.toInt) := by
      simpa using inside
    obtain ⟨lower, upper⟩ := fit (values numbers) (by simp)
    have found : numbers.foldlM step start = some ⟨_, lower, upper⟩ :=
      (foldlM_eq_some_iff checked).mpr ⟨rfl, fit⟩
    rw [nothing] at found
    cases found
  · rintro ⟨front, among, outside⟩
    refine Option.eq_none_iff_forall_ne_some.mpr fun result found => outside ?_
    exact ((foldlM_eq_some_iff checked).mp found).2 front among

end Folding

/-- A result that was folded is what the primitive is to compute, if it is the fold of the same
operation.
-/
theorem computes_fitted {primitive : Primitive} {numbers : List Integer} {found : Option Integer}
    (some
      : ∀ result,
          found = some result
          ↔ unbounded? primitive (values numbers) = some result.toInt
            ∧ ∀ number ∈ partials primitive (values numbers), Integer.Fits number)
    (none
      : found = none
        → ∃ number ∈ partials primitive (values numbers), ¬ Integer.Fits number)
    : Computes primitive (operands numbers) (primitive.fitted found) := by
  cases found with
  | none =>
      obtain ⟨number, among, outside⟩ := none rfl
      exact .overflow among outside
  | some result =>
      obtain ⟨computed, fit⟩ := (some result).mp rfl
      exact .exact computed fit

theorem computes_sum (numbers : List Integer) : Computes add (operands numbers) (sum numbers) := by
  have checked (left right : Integer)
      : left.add? right = Integer.ofInt? (left.toInt + right.toInt) :=
    rfl
  refine computes_fitted (fun result => ?_) fun nothing => ?_
  · rw [foldlM_eq_some_iff checked]
    simp [unbounded?, partials, Integer.zero]
  · rw [foldlM_eq_none_iff checked] at nothing
    simpa [partials, Integer.zero] using nothing

theorem computes_product (numbers : List Integer)
    : Computes mul (operands numbers) (product numbers) := by
  have checked (left right : Integer)
      : left.mul? right = Integer.ofInt? (left.toInt * right.toInt) :=
    rfl
  refine computes_fitted (fun result => ?_) fun nothing => ?_
  · rw [foldlM_eq_some_iff checked]
    simp [unbounded?, partials, Integer.one]
  · rw [foldlM_eq_none_iff checked] at nothing
    simpa [partials, Integer.one] using nothing

-----------------------------------------------------------------------------------------
-- All primitives
-----------------------------------------------------------------------------------------

/-- One operation with a check computes what it is to compute. -/
theorem computes_checked {primitive : Primitive} {numbers : List Integer} {result : Int}
    (defined : unbounded? primitive (values numbers) = some result)
    (partials : partials primitive (values numbers) = [result])
    : Computes primitive (operands numbers) (primitive.fitted (Integer.ofInt? result)) := by
  apply computes_fitted
  · intro found
    simp only [Integer.ofInt?_eq_some_iff, defined, partials, Option.some.injEq, List.mem_singleton,
      forall_eq]
    constructor
    · intro same
      exact ⟨same.symm, same ▸ ⟨found.lower, found.upper⟩⟩
    · exact fun both => both.1.symm
  · intro outside
    exact ⟨result, by simp [partials], Integer.ofInt?_eq_none_iff.mp outside⟩

/-- Where operands are integers, a primitive other than equality computes from these, and it
complains about the first operand that is none.
-/
theorem onIntegers_computes {primitive : Primitive} {args : List Value}
    {compute : List Integer → Option (Except EvalError Value)} (wants : primitive ≠ equal)
    (computes
      : ∀ numbers, args = operands numbers
        → ∃ outcome, compute numbers = some outcome ∧ Computes primitive args outcome)
    : ∃ outcome, onIntegers compute args = some outcome ∧ Computes primitive args outcome := by
  rcases operands_or_first args with ⟨numbers, same⟩ | ⟨numbers, found, rest, rfl, other⟩
  · obtain ⟨outcome, computed, meant⟩ := computes numbers same
    refine ⟨outcome, ?_, meant⟩
    rw [onIntegers, same, integers_operands]
    exact computed
  · refine ⟨_, ?_, .notAnInteger numbers wants other rest⟩
    rw [onIntegers, integers_first numbers other rest]

/-- A primitive computes something from as many operands as it accepts, and that is what it is to
make of them; by cases on the primitive.
-/
theorem exists_compute? {primitive : Primitive} {args : List Value}
    (admitted : primitive.arity.Admits args.length)
    : ∃ outcome, primitive.compute? args = some outcome ∧ Computes primitive args outcome := by
  cases primitive with
  | add =>
      refine onIntegers_computes (by decide) fun numbers same => ?_
      exact ⟨_, rfl, same ▸ computes_sum numbers⟩
  | mul =>
      refine onIntegers_computes (by decide) fun numbers same => ?_
      exact ⟨_, rfl, same ▸ computes_product numbers⟩
  | sub =>
      refine onIntegers_computes (by decide) fun numbers same => ?_
      subst same
      have count : numbers.length = 1 ∨ numbers.length = 2 := by
        simp only [arity, Arity.Admits, operands, List.length_map] at admitted
        omega
      rcases count with one | two
      · obtain ⟨number, rfl⟩ := List.length_eq_one_iff.mp one
        exact ⟨_, rfl, computes_checked rfl rfl⟩
      · obtain ⟨left, right, rfl⟩ := List.length_eq_two.mp two
        exact ⟨_, rfl, computes_checked rfl rfl⟩
  | equal =>
      obtain ⟨left, right, rfl⟩ := List.length_eq_two.mp (Arity.exactly_admits_iff.mp admitted)
      exact ⟨_, rfl, .equal left right⟩
  | less =>
      refine onIntegers_computes (by decide) fun numbers same => ?_
      subst same
      have two : numbers.length = 2 := by simpa [arity, operands] using admitted
      obtain ⟨left, right, rfl⟩ := List.length_eq_two.mp two
      exact ⟨_, rfl, .less left right⟩

/-- Arithmetic alone overflows: addition, subtraction and multiplication, by cases on the primitive.
-/
theorem overflow_name {primitive : Primitive} {numbers : List Int} {number : Int}
    (among : number ∈ partials primitive numbers)
    : primitive.name ∈ ["+", "-", "*"] := by
  cases primitive <;> simp_all [partials, unbounded?, name]

end Primitive

end MiniLisp
