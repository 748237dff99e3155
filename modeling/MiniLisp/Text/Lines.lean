import MiniLisp.Text.Bytes

/-! Lines of a byte stream: a line feed ends a line and a carriage return right before it belongs
to the ending.
-/

namespace MiniLisp.Text

/-- The byte that ends a line. -/
def lineFeed : UInt8 := 0x0A

/-- The byte that may stand before the one that ends a line. -/
def carriageReturn : UInt8 := 0x0D

/-- A stream cut after every line feed. What follows the last one is a piece unless it is empty. -/
def pieces : Bytes → List Bytes
  | [] => []
  | byte :: rest =>
      if byte = lineFeed then [byte] :: pieces rest
      else
        match pieces rest with
        | [] => [[byte]]
        | piece :: more => (byte :: piece) :: more

/-- Bytes without a given one at their end. -/
def dropLastIf (byte : UInt8) (bytes : Bytes) : Bytes :=
  if bytes.getLast? = some byte then bytes.dropLast else bytes

/-- The line in a piece. A piece that no line feed ends is its own line. -/
def lineOf (piece : Bytes) : Bytes :=
  if piece.getLast? = some lineFeed then dropLastIf carriageReturn piece.dropLast else piece

/-- A piece cut off takes in the byte before it. -/
theorem pieces_cons_of_ne {byte : UInt8} (h : byte ≠ lineFeed) (rest : Bytes)
    : pieces (byte :: rest)
      = (byte :: (pieces rest).headD []) :: (pieces rest).tail := by
  rw [pieces, if_neg h]
  cases pieces rest <;> rfl

/-- Cutting loses nothing, by induction on the stream. -/
@[simp]
theorem flatten_pieces (bytes : Bytes) : (pieces bytes).flatten = bytes := by
  induction bytes with
  | nil => rfl
  | cons byte rest ih =>
      rw [pieces]
      split
      · simp [ih]
      · cases h : pieces rest <;> simp_all

end MiniLisp.Text
