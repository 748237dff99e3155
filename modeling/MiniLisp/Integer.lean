/-! The language's integers: those of 64 bits with a sign, on which arithmetic never wraps.
An operation is done on unbounded integers and its result is kept when it fits.
-/

namespace MiniLisp

/-- One more than the largest integer. -/
def integerBound : Int :=
  9223372036854775808

/-- An integer of the language: an unbounded one in the range of 64 bits with a sign. -/
structure Integer where
  toInt : Int
  lower : -integerBound ≤ toInt
  upper : toInt < integerBound
deriving DecidableEq

namespace Integer

/-- The unbounded integer is one of the language. -/
def Fits (n : Int) : Prop :=
  -integerBound ≤ n ∧ n < integerBound

instance (n : Int) : Decidable (Fits n) :=
  inferInstanceAs (Decidable (_ ∧ _))

/-- The integer of an unbounded one, if that fits. -/
def ofInt? (n : Int) : Option Integer :=
  if fits : Fits n then some ⟨n, fits.1, fits.2⟩ else none

/-- An integer is found exactly for its own value. -/
@[simp]
theorem ofInt?_eq_some_iff {n : Int} {a : Integer} : ofInt? n = some a ↔ a.toInt = n := by
  unfold ofInt?
  constructor
  · intro found
    split at found
    · cases found
      rfl
    · cases found
  · rintro rfl
    exact dif_pos ⟨a.lower, a.upper⟩

/-- No integer is found exactly outside the range. -/
@[simp]
theorem ofInt?_eq_none_iff {n : Int} : ofInt? n = none ↔ ¬ Fits n := by
  unfold ofInt?
  split
  · next fits => exact iff_of_false nofun (not_not_intro fits)
  · next outside => exact iff_of_true rfl outside

/-- Integers of one value are equal. -/
theorem toInt_inj {a b : Integer} : a.toInt = b.toInt ↔ a = b := by
  cases a
  cases b
  simp

/-- The integer that changes no sum. -/
def zero : Integer :=
  ⟨0, by decide, by decide⟩

/-- The integer that changes no product. -/
def one : Integer :=
  ⟨1, by decide, by decide⟩

/-- The exact sum, if it fits. -/
def add? (a b : Integer) : Option Integer :=
  ofInt? (a.toInt + b.toInt)

/-- The exact difference, if it fits. -/
def sub? (a b : Integer) : Option Integer :=
  ofInt? (a.toInt - b.toInt)

/-- The exact product, if it fits. -/
def mul? (a b : Integer) : Option Integer :=
  ofInt? (a.toInt * b.toInt)

/-- The exact negation, if it fits. -/
def neg? (a : Integer) : Option Integer :=
  ofInt? (-a.toInt)

/-- The order of values. -/
def less (a b : Integer) : Bool :=
  decide (a.toInt < b.toInt)

/-- Decimal notation, with a minus sign before a negative number. -/
def text (a : Integer) : String :=
  if a.toInt < 0 then "-" ++ Nat.repr a.toInt.natAbs else Nat.repr a.toInt.natAbs

end Integer

end MiniLisp
