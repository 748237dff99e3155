import MiniLisp.Text.Blank

/-! Characters that a quoted text shows as they are.
The tables cover control and format characters, separators, private use and the blocks of
combining marks common to all scripts; a code point that no table names counts as printable.
-/

namespace MiniLisp.Text

/-- The control characters: the general category Cc. -/
def controls : CharTable :=
  [⟨0x00, 0x1F⟩, ⟨0x7F, 0x9F⟩]

/-- The format characters: the general category Cf. -/
def formats : CharTable :=
  [⟨0xAD, 0xAD⟩, ⟨0x600, 0x605⟩, ⟨0x61C, 0x61C⟩, ⟨0x6DD, 0x6DD⟩, ⟨0x70F, 0x70F⟩,
    ⟨0x890, 0x891⟩, ⟨0x8E2, 0x8E2⟩, ⟨0x180E, 0x180E⟩, ⟨0x200B, 0x200F⟩,
    ⟨0x202A, 0x202E⟩, ⟨0x2060, 0x2064⟩, ⟨0x2066, 0x206F⟩, ⟨0xFEFF, 0xFEFF⟩,
    ⟨0xFFF9, 0xFFFB⟩, ⟨0x110BD, 0x110BD⟩, ⟨0x110CD, 0x110CD⟩, ⟨0x13430, 0x1343F⟩,
    ⟨0x1BCA0, 0x1BCA3⟩, ⟨0x1D173, 0x1D17A⟩, ⟨0xE0001, 0xE0001⟩, ⟨0xE0020, 0xE007F⟩]

/-- The code points set aside for private use: the general category Co. -/
def privateUse : CharTable :=
  [⟨0xE000, 0xF8FF⟩, ⟨0xF0000, 0xFFFFD⟩, ⟨0x100000, 0x10FFFD⟩]

/-- Marks that join the character before them, in the blocks that serve every script. -/
def combiningMarks : CharTable :=
  [⟨0x300, 0x36F⟩, ⟨0x483, 0x489⟩, ⟨0x1AB0, 0x1ACE⟩, ⟨0x1DC0, 0x1DFF⟩, ⟨0x20D0, 0x20F0⟩,
    ⟨0xFE00, 0xFE0F⟩, ⟨0xFE20, 0xFE2F⟩, ⟨0xE0100, 0xE01EF⟩]

/-- The character shows as itself: a space does, any other blank does not. -/
def isPrintable (c : Char) : Bool :=
  c == ' '
    || !(isBlank c || controls.holds c || formats.holds c || privateUse.holds c
      || combiningMarks.holds c)

end MiniLisp.Text
