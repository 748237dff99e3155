import Mathlib.Algebra.Ring.Int.Defs
import MiniLisp.Eval.Apply
import MiniLisp.Machine.Lemmas
import MiniLisp.Proofs.Primitives.Outcomes

/-! What a call of a primitive answers, for every list of operands.
A refused operand count comes before anything else, an operand that is no integer before an overflow,
and an overflow is due to what the operands come to on the way, from left to right.
-/

namespace MiniLisp.Primitive

open Eval

-----------------------------------------------------------------------------------------
-- Answers of calls
-----------------------------------------------------------------------------------------

/-- A call of the primitive has this outcome on every machine, and does no more to it than to note
events down.
-/
def Answers (primitive : Primitive) (args : List Value) (outcome : Except EvalError Value)
    : Prop :=
  ∀ machine, ∃ trace,
    (callPrimitive primitive args).on machine = .ok (outcome, { machine with trace })

/-- A call of the primitive complains about the operand count and does nothing to any machine. -/
def Refuses (primitive : Primitive) (args : List Value) : Prop :=
  ∀ machine,
    (callPrimitive primitive args).on machine
    = .ok (.error (.arityMismatch ⟨primitive.name, primitive.arity, args.length⟩), machine)

/-- The primitive answers with the exact integer, if everything that it comes to on the way fits, and
with an overflow if something does not.
-/
structure Settles (primitive : Primitive) (numbers : List Integer) (onTheWay : Int → Prop)
    (exact : Int)
    : Prop where
  fitting
    : (∀ number, onTheWay number → Integer.Fits number)
      → ∃ result : Integer,
          result.toInt = exact ∧ primitive.Answers (operands numbers) (.ok (.integer result))
  overflowing
    : (∃ number, onTheWay number ∧ ¬ Integer.Fits number)
      → primitive.Answers (operands numbers) (.error (.overflow primitive))

/-- What primitives answer to operands. -/
structure AnswerExactly (args : List Value) : Prop where
  miscounted
    : (args.length ≠ 1 → args.length ≠ 2 → sub.Refuses args)
      ∧ (args.length ≠ 2 → less.Refuses args ∧ equal.Refuses args)
  notAnInteger
    : ∀ numbers found rest,
        args = operands numbers ++ found :: rest
        → (∀ number, found ≠ .integer number)
        → add.Answers args (.error (.notAnInteger found))
          ∧ mul.Answers args (.error (.notAnInteger found))
          ∧ (args.length = 1 ∨ args.length = 2 → sub.Answers args (.error (.notAnInteger found)))
          ∧ (args.length = 2 → less.Answers args (.error (.notAnInteger found)))
  sum
    : ∀ numbers,
        args = operands numbers
        → add.Settles numbers (fun number => ∃ front, front <+: values numbers ∧ front.sum = number)
            (values numbers).sum
  product
    : ∀ numbers,
        args = operands numbers
        → mul.Settles numbers
            (fun number => ∃ front, front <+: values numbers ∧ front.prod = number)
            (values numbers).prod
  negation
    : ∀ number,
        args = operands [number] → sub.Settles [number] (· = -number.toInt) (-number.toInt)
  difference
    : ∀ left right,
        args = operands [left, right]
        → sub.Settles [left, right] (· = left.toInt - right.toInt) (left.toInt - right.toInt)
  order
    : ∀ left right,
        args = operands [left, right]
        → less.Answers args (.ok (.bool (decide (left.toInt < right.toInt))))
  equality
    : ∀ left right, args = [left, right] → equal.Answers args (.ok (.bool (left.same right)))

section Calls

variable {primitive : Primitive} {args : List Value}

/-- An accepted operand count leads to what the primitive computes. -/
theorem answers_of_compute? {outcome : Except EvalError Value}
    (admitted : primitive.arity.Admits args.length)
    (computed : primitive.compute? args = some outcome)
    : primitive.Answers args outcome := by
  intro machine
  simp only [callPrimitive, on_bind, on_checkArity_of_admits admitted, on_emit, computed,
    on_ofOutcome]
  exact ⟨_, rfl⟩

theorem refuses_of_not_admits (refused : ¬ primitive.arity.Admits args.length)
    : primitive.Refuses args := by
  intro machine
  rw [callPrimitive, on_bind, on_checkArity_of_not_admits refused]

/-- The first operand that is no integer is complained about. -/
theorem onIntegers_first (compute : List Integer → Option (Except EvalError Value))
    (numbers : List Integer) {found : Value} (other : ∀ number, found ≠ .integer number)
    (rest : List Value)
    : onIntegers compute (operands numbers ++ found :: rest)
      = some (.error (.notAnInteger found)) := by
  rw [onIntegers, integers_first numbers other rest]

theorem onIntegers_operands (compute : List Integer → Option (Except EvalError Value))
    (numbers : List Integer)
    : onIntegers compute (operands numbers) = compute numbers := by
  rw [onIntegers, integers_operands]

end Calls

-----------------------------------------------------------------------------------------
-- Arithmetic
-----------------------------------------------------------------------------------------

section Arithmetic

variable {primitive : Primitive} {numbers : List Integer} {onTheWay : Int → Prop} {exact : Int}
  {computed : Option Integer}

/-- Checked arithmetic settles what it comes to, if there is a result just where everything on the
way to it fits.
-/
theorem settles_of_fitted (answers : primitive.Answers (operands numbers) (primitive.fitted computed))
    (some
      : ∀ result,
          computed = some result
          ↔ exact = result.toInt ∧ ∀ number, onTheWay number → Integer.Fits number)
    (none : computed = none ↔ ∃ number, onTheWay number ∧ ¬ Integer.Fits number)
    : primitive.Settles numbers onTheWay exact := by
  constructor
  · intro fit
    cases found : computed with
    | none =>
        obtain ⟨number, among, outside⟩ := none.mp found
        exact absurd (fit number among) outside
    | some result =>
        rw [found] at answers
        exact ⟨result, ((some result).mp found).1.symm, answers⟩
  · intro outside
    rw [none.mpr outside] at answers
    exact answers

/-- A fold of checked operations settles the fold of the exact ones over each front part. -/
theorem settles_of_foldlM {operation : Int → Int → Int}
    {step : Integer → Integer → Option Integer} {start : Integer}
    (checked : ∀ left right, step left right = Integer.ofInt? (operation left.toInt right.toInt))
    {total : List Int → Int} (folded : ∀ front, total front = front.foldl operation start.toInt)
    (answers
      : primitive.Answers (operands numbers) (primitive.fitted (numbers.foldlM step start)))
    : primitive.Settles numbers
        (fun number => ∃ front, front <+: values numbers ∧ total front = number)
        (total (values numbers)) := by
  refine settles_of_fitted answers (fun result => ?_) ?_
  · rw [foldlM_eq_some_iff checked]
    simp [folded]
  · rw [foldlM_eq_none_iff checked]
    simp [folded]

/-- One checked operation settles its exact result. -/
theorem settles_of_ofInt? (answers
      : primitive.Answers (operands numbers) (primitive.fitted (Integer.ofInt? exact)))
    : primitive.Settles numbers (· = exact) exact := by
  refine settles_of_fitted answers (fun result => ?_) (by simp)
  simp only [Integer.ofInt?_eq_some_iff, forall_eq]
  constructor
  · intro same
    exact ⟨same.symm, same ▸ ⟨result.lower, result.upper⟩⟩
  · exact fun both => both.1.symm

end Arithmetic

/-- Sums and products are taken of any number of integers. -/
theorem settles_sum (numbers : List Integer)
    : add.Settles numbers (fun number => ∃ front, front <+: values numbers ∧ front.sum = number)
        (values numbers).sum := by
  have checked (left right : Integer)
      : left.add? right = Integer.ofInt? (left.toInt + right.toInt) :=
    rfl
  refine settles_of_foldlM checked ?folded
    (answers_of_compute? (Nat.zero_le _) (onIntegers_operands _ numbers))
  exact fun front => List.sum_eq_foldl

theorem settles_product (numbers : List Integer)
    : mul.Settles numbers (fun number => ∃ front, front <+: values numbers ∧ front.prod = number)
        (values numbers).prod := by
  have checked (left right : Integer)
      : left.mul? right = Integer.ofInt? (left.toInt * right.toInt) :=
    rfl
  refine settles_of_foldlM checked ?folded
    (answers_of_compute? (Nat.zero_le _) (onIntegers_operands _ numbers))
  exact fun front => List.prod_eq_foldl

-----------------------------------------------------------------------------------------
-- All operands
-----------------------------------------------------------------------------------------

/-- The first operand that is no integer is what every primitive but equality complains about, if it
accepts the operand count.
-/
theorem answers_first {primitive : Primitive} (wants : primitive ≠ equal) {numbers : List Integer}
    {found : Value} {rest : List Value} (other : ∀ number, found ≠ .integer number)
    (admitted : primitive.arity.Admits (operands numbers ++ found :: rest).length)
    : primitive.Answers (operands numbers ++ found :: rest) (.error (.notAnInteger found)) := by
  refine answers_of_compute? admitted ?_
  cases primitive with
  | equal => exact absurd rfl wants
  | add | sub | mul | less => exact onIntegers_first _ numbers other rest

/-- Primitives compute exactly or say why not, whatever their operands are. -/
theorem primitives_answer_exactly (args : List Value) : AnswerExactly args where
  miscounted := by
    have exactly {primitive : Primitive} (two : primitive.arity = .exactly 2)
        (count : args.length ≠ 2)
        : primitive.Refuses args := by
      refine refuses_of_not_admits ?_
      rw [two, Arity.exactly_admits_iff]
      exact count
    refine ⟨fun notOne notTwo => refuses_of_not_admits ?_,
      fun count => ⟨exactly rfl count, exactly rfl count⟩⟩
    simp only [arity, Arity.Admits]
    omega
  notAnInteger := by
    rintro numbers found rest rfl other
    refine ⟨answers_first (by decide) other (Nat.zero_le _),
      answers_first (by decide) other (Nat.zero_le _),
      fun count => answers_first (by decide) other ?_,
      fun count => answers_first (by decide) other (Arity.exactly_admits_iff.mpr count)⟩
    simp only [arity, Arity.Admits]
    omega
  sum numbers _ := settles_sum numbers
  product numbers _ := settles_product numbers
  negation number _ :=
    settles_of_ofInt? (answers_of_compute? ⟨Nat.le_refl 1, Nat.le_succ 1⟩ rfl)
  difference left right _ :=
    settles_of_ofInt? (answers_of_compute? ⟨Nat.le_succ 1, Nat.le_refl 2⟩ rfl)
  order := by
    rintro left right rfl
    exact answers_of_compute? (Arity.exactly_admits_iff.mpr rfl) rfl
  equality := by
    rintro left right rfl
    exact answers_of_compute? (Arity.exactly_admits_iff.mpr rfl) rfl

/-- A product that leaves the range does not come back to it with a zero, unless the zero comes
first.
-/
example
    : mul.Answers (operands [⟨4611686018427387904, by decide, by decide⟩, ⟨2, by decide, by decide⟩,
          .zero]) (.error (.overflow .mul))
      ∧ mul.Answers (operands [.zero, ⟨4611686018427387904, by decide, by decide⟩,
          ⟨2, by decide, by decide⟩]) (.ok (.integer .zero)) :=
  ⟨fun _ => ⟨_, rfl⟩, fun _ => ⟨_, rfl⟩⟩

end MiniLisp.Primitive
