import MiniLisp.Text.CharTable

/-! White space, as the Unicode property White_Space has it. -/

namespace MiniLisp.Text

/-- The twenty-five characters with the property White_Space. -/
def blanks : CharTable :=
  [⟨0x09, 0x0D⟩, ⟨0x20, 0x20⟩, ⟨0x85, 0x85⟩, ⟨0xA0, 0xA0⟩, ⟨0x1680, 0x1680⟩,
    ⟨0x2000, 0x200A⟩, ⟨0x2028, 0x2029⟩, ⟨0x202F, 0x202F⟩, ⟨0x205F, 0x205F⟩,
    ⟨0x3000, 0x3000⟩]

/-- The character only separates: it belongs to no token. -/
def isBlank (c : Char) : Bool :=
  blanks.holds c

end MiniLisp.Text
