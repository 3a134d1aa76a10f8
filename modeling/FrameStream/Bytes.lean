/-!
# Byte strings

Texts come from the wire as bytes and go back as bytes. `Bytes.ofText` and `Bytes.text?` are the two
directions; not every byte string spells a text, and `text?_ofText` says that every text survives the
way there and back.
-/

namespace FrameStream

abbrev Bytes := List UInt8

namespace Bytes

def ofText (s : String) : Bytes := s.toUTF8.data.toList

/-- The text a byte string spells, if it is valid UTF-8. -/
def text? (b : Bytes) : Option String := String.fromUTF8? ⟨b.toArray⟩

/-- The end of the whole characters from `i` on, `fuel` characters at most. -/
def charactersEnd (b : ByteArray) : Nat → Nat → Nat
  | 0, i => i
  | fuel + 1, i =>
    match b.utf8DecodeChar? i with
    | some c => charactersEnd b fuel (i + c.utf8Size)
    | none => i

/-- The length of the part before the first byte that begins no whole character. -/
def spelledLength (b : Bytes) : Nat := charactersEnd ⟨b.toArray⟩ b.length 0

theorem text?_ofText (s : String) : text? (ofText s) = some s := by
  simp only [text?, ofText, String.fromUTF8?, Array.toArray_toList, String.toUTF8_eq_toByteArray,
    dif_pos s.isValidUTF8]
  rfl

theorem ofText_append (s t : String) : ofText (s ++ t) = ofText s ++ ofText t := by
  simp [ofText, String.toUTF8_eq_toByteArray]

end Bytes
end FrameStream
