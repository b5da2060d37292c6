import Polypath.Text.Base64Url
import Polypath.Text.Utf8

/-!
# Text in the first half of the bytes

Bytes under 128 are the UTF-8 bytes of the text that they spell (`toUtf8_ofAscii`). The symbols of base64url text are
such bytes, so a written text has exactly the written symbols as its bytes (`toUtf8_encode`).
-/

namespace Polypath.Text

theorem utf8EncodeChar_ofNat {b : UInt8} (hb : b.toNat < 128) : String.utf8EncodeChar (Char.ofNat b.toNat) = [b] := by
  have hvalid : b.toNat.isValidChar := .inl (by omega)
  have hval : (Char.ofNat b.toNat).val.toNat = b.toNat := by
    rw [Char.ofNat, dif_pos hvalid]
    rfl
  have hle : b.toNat ≤ 127 := by omega
  simp only [String.utf8EncodeChar, hval, hle, if_true, UInt8.ofNat_toNat]

/-- Bytes under 128 are the bytes of the text that they spell. -/
theorem toUtf8_ofAscii {bytes : List UInt8} (hbytes : ∀ b ∈ bytes, b.toNat < 128) :
    toUtf8 (ofAscii bytes).toList = bytes := by
  simp only [toUtf8, ofAscii, String.toList_ofList]
  induction bytes with
  | nil => rfl
  | cons b bytes ih =>
    rw [List.map_cons, List.flatMap_cons, utf8EncodeChar_ofNat (hbytes b List.mem_cons_self),
      ih fun b hb => hbytes b (List.mem_cons_of_mem _ hb), List.singleton_append]

namespace Base64Url

theorem symbol_lt (n : Nat) : (symbol n).toNat < 128 := by
  simp only [symbol, UInt8.toNat_ofNat']
  grind

theorem encode_lt (bytes : List UInt8) : ∀ b ∈ encode bytes, b.toNat < 128 := by
  have hpad : pad.toNat < 128 := by decide
  fun_induction encode bytes with
  | case1 a b c rest n ih => simpa [symbol_lt] using ih
  | case2 a b n => simp [symbol_lt, hpad]
  | case3 a n => simp [symbol_lt, hpad]
  | case4 => simp

theorem toUtf8_encode (bytes : List UInt8) : toUtf8 (ofAscii (encode bytes)).toList = encode bytes :=
  toUtf8_ofAscii (encode_lt bytes)

end Base64Url

end Polypath.Text
