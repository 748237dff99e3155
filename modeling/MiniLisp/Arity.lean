/-! Operand counts: how many operands a procedure or form accepts, and the complaint about a count
that it does not accept.
-/

namespace MiniLisp

/-- The accepted operand counts. No count lies between ends that are out of order. -/
inductive Arity
  | between (low high : Nat)
  | atLeast (low : Nat)
deriving DecidableEq

namespace Arity

/-- One count alone is accepted. -/
def exactly (count : Nat) : Arity :=
  between count count

/-- The count is accepted, by its bounds. -/
def Admits : Arity → Nat → Prop
  | between low high, count => low ≤ count ∧ count ≤ high
  | atLeast low, count => low ≤ count

instance (arity : Arity) (count : Nat) : Decidable (arity.Admits count) :=
  match arity with
  | between _ _ => inferInstanceAs (Decidable (_ ∧ _))
  | atLeast _ => inferInstanceAs (Decidable (_ ≤ _))

/-- An exact arity accepts its count and no other, by antisymmetry. -/
@[simp]
theorem exactly_admits_iff {count given : Nat}
    : (exactly count).Admits given ↔ given = count := by
  simp only [exactly, Admits]
  omega

/-- The arity in words. -/
def text : Arity → String
  | between low high =>
      if low = high then "exactly " ++ Nat.repr low
      else "from " ++ Nat.repr low ++ " to " ++ Nat.repr high
  | atLeast low => "at least " ++ Nat.repr low

/-- The noun counted: singular where one operand alone is accepted. -/
def noun (arity : Arity) : String :=
  if arity = exactly 1 then "operand" else "operands"

end Arity

/-- The complaint that something received a number of operands that it does not accept. -/
structure ArityMismatch where
  name : String
  expected : Arity
  got : Nat
deriving DecidableEq

namespace ArityMismatch

/-- The complaint in words. -/
def message (mismatch : ArityMismatch) : String :=
  "when evaluating " ++ mismatch.name ++ " expected " ++ mismatch.expected.text ++ " "
    ++ mismatch.expected.noun ++ ", but received " ++ Nat.repr mismatch.got

end ArityMismatch

end MiniLisp
