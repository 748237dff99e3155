/-! Texts as bytes in UTF-8. -/

namespace MiniLisp.Text

/-- A sequence of bytes. -/
abbrev Bytes := List UInt8

/-- A text in UTF-8. -/
def encode (text : String) : Bytes :=
  text.toByteArray.data.toList

/-- The text that bytes in UTF-8 hold; nothing if they are no UTF-8. -/
def decode? (bytes : Bytes) : Option String :=
  String.fromUTF8? ⟨bytes.toArray⟩

/-- A text is what its bytes hold, by the validity of its own bytes. -/
@[simp]
theorem decode?_encode (text : String) : decode? (encode text) = some text := by
  unfold decode? encode
  rw [Array.toArray_toList]
  exact dif_pos text.isValidUTF8

/-- Bytes that hold a text are the text in UTF-8, by the decoder's definition. -/
theorem eq_encode_of_decode? {bytes : Bytes} {text : String} (h : decode? bytes = some text)
    : bytes = encode text := by
  unfold decode? String.fromUTF8? at h
  split at h
  · cases h
    simp [encode, String.fromUTF8]
  · cases h

end MiniLisp.Text
