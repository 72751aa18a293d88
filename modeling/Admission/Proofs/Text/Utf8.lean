import Admission.Text.Utf8

/-! The bytes of a text are those of its characters, one after the other. -/

set_option autoImplicit false

namespace Admission.Text

theorem utf8Bytes_ofList (chars : List Char) :
    utf8Bytes (String.ofList chars) = chars.flatMap String.utf8EncodeChar := by
  rw [utf8Bytes, String.toUTF8_eq_toByteArray, String.toByteArray_ofList, List.utf8Encode,
    List.toList_data_toByteArray]

theorem utf8Bytes_eq (text : String) : utf8Bytes text = text.toList.flatMap String.utf8EncodeChar := by
  rw [← utf8Bytes_ofList, String.ofList_toList]

@[simp]
theorem utf8Bytes_append (first second : String) :
    utf8Bytes (first ++ second) = utf8Bytes first ++ utf8Bytes second := by
  simp [utf8Bytes_eq]

@[simp]
theorem utf8Bytes_push (text : String) (c : Char) :
    utf8Bytes (text.push c) = utf8Bytes text ++ String.utf8EncodeChar c := by
  simp [utf8Bytes_eq]

theorem toByteArray_utf8Bytes (text : String) : (utf8Bytes text).toByteArray = text.toUTF8 := by
  rw [utf8Bytes_eq, ← List.utf8Encode, ← String.toByteArray_ofList, String.ofList_toList,
    String.toUTF8_eq_toByteArray]

theorem fromUTF8?_toUTF8 (text : String) : String.fromUTF8? text.toUTF8 = some text := by
  rw [String.fromUTF8?, dif_pos (text.toUTF8_eq_toByteArray ▸ text.isValidUTF8)]
  rfl

theorem ofUtf8?_utf8Bytes (text : String) : ofUtf8? (utf8Bytes text) = some text :=
  fromUTF8?_toUTF8 text

theorem utf8EncodeChar_of_ascii {c : Char} (ascii : c.toNat < 128) :
    String.utf8EncodeChar c = [UInt8.ofNat c.toNat] :=
  if_pos (Nat.le_of_lt_succ ascii)

theorem le_ofNat_of_bounds {n : Nat} (least : 128 ≤ n) (lt : n < 256) : 128 ≤ UInt8.ofNat n := by
  rw [UInt8.le_iff_toNat_le, UInt8.toNat_ofNat_of_lt' lt]
  exact least

/-- Every byte of a character beyond the ASCII ones has its highest bit set. -/
theorem le_of_mem_utf8EncodeChar {c : Char} (high : 128 ≤ c.toNat) {byte : UInt8}
    (mem : byte ∈ String.utf8EncodeChar c) : 128 ≤ byte := by
  rw [String.utf8EncodeChar] at mem
  simp only [Char.toNat] at high
  split at mem
  · omega
  · split at mem
    · simp only [List.mem_cons, List.not_mem_nil, or_false] at mem
      rcases mem with rfl | rfl <;> exact le_ofNat_of_bounds (by omega) (by omega)
    · split at mem
      · simp only [List.mem_cons, List.not_mem_nil, or_false] at mem
        rcases mem with rfl | rfl | rfl <;> exact le_ofNat_of_bounds (by omega) (by omega)
      · simp only [List.mem_cons, List.not_mem_nil, or_false] at mem
        rcases mem with rfl | rfl | rfl | rfl <;> exact le_ofNat_of_bounds (by omega) (by omega)

def asciiBytes (chars : List Char) : List UInt8 :=
  chars.map fun c => UInt8.ofNat c.toNat

theorem utf8Bytes_of_ascii {chars : List Char} (ascii : ∀ c ∈ chars, c.toNat < 128) :
    utf8Bytes (String.ofList chars) = asciiBytes chars := by
  rw [utf8Bytes_ofList]
  induction chars with
  | nil => rfl
  | cons c chars ih =>
    rw [List.forall_mem_cons] at ascii
    rw [List.flatMap_cons, utf8EncodeChar_of_ascii ascii.1, ih ascii.2]
    rfl

end Admission.Text
