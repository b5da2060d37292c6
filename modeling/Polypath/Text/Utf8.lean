/-!
# Text as bytes
-/

namespace Polypath.Text

/-- The bytes of a text. -/
def toUtf8 (s : List Char) : List UInt8 := s.flatMap String.utf8EncodeChar

/-- The number of bytes of a text. -/
def byteLength (s : List Char) : Nat := (toUtf8 s).length

/-- The text of a byte string, if it is the writing of one. -/
def ofUtf8? (bytes : List UInt8) : Option String := String.fromUTF8? ⟨bytes.toArray⟩

/-- The bytes of a text are the writing of that text. -/
theorem ofUtf8?_toUtf8 (s : List Char) : ofUtf8? (toUtf8 s) = some (String.ofList s) := by
  have hbytes : (⟨(toUtf8 s).toArray⟩ : ByteArray) = s.utf8Encode := by
    apply ByteArray.ext
    simp [toUtf8, List.utf8Encode]
  have hvalid : (⟨(toUtf8 s).toArray⟩ : ByteArray).IsValidUTF8 := ⟨s, hbytes⟩
  rw [ofUtf8?, String.fromUTF8?, dif_pos hvalid, Option.some_inj, ← String.toByteArray_inj]
  exact hbytes

theorem toUtf8_injective {s t : List Char} (h : toUtf8 s = toUtf8 t) : s = t := by
  have htext : some (String.ofList s) = some (String.ofList t) := by rw [← ofUtf8?_toUtf8, ← ofUtf8?_toUtf8, h]
  exact String.ofList_injective (Option.some.inj htext)

/-- The text whose characters have the given bytes as code points. -/
def ofAscii (bytes : List UInt8) : String := String.ofList (bytes.map fun b => Char.ofNat b.toNat)

end Polypath.Text
