/-! Sets of characters written down as ranges of code points. -/

namespace MiniLisp.Text

/-- A run of code points with both ends in it. -/
structure CharRange where
  first : Nat
  last : Nat
deriving DecidableEq

/-- A set of characters, as the ranges that make it up. -/
abbrev CharTable := List CharRange

/-- The character's code point lies in the range. -/
def CharRange.holds (range : CharRange) (c : Char) : Bool :=
  range.first ≤ c.toNat && c.toNat ≤ range.last

/-- The character lies in one of the table's ranges. -/
def CharTable.holds (table : CharTable) (c : Char) : Bool :=
  table.any (·.holds c)

end MiniLisp.Text
