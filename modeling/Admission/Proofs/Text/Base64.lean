import Admission.Proofs.Text.Utf8
import Admission.Text.Base64

/-! Bytes in base64 are decoded as themselves. -/

set_option autoImplicit false

namespace Admission.Base64

open Text (utf8Bytes)

def symbolByte (bits : Nat) : UInt8 :=
  UInt8.ofNat (symbol bits).toNat

theorem value?_symbolByte : ∀ bits < 64, value? (symbolByte bits) = some bits := by
  decide

theorem symbolByte_ne_pad : ∀ bits < 64, symbolByte bits ≠ 61 := by
  decide

theorem utf8EncodeChar_symbol {bits : Nat} (fits : bits < 64) :
    String.utf8EncodeChar (symbol bits) = [symbolByte bits] := by
  have ascii : ∀ bits < 64, (symbol bits).toNat < 128 := by decide
  exact Text.utf8EncodeChar_of_ascii (ascii bits fits)

def symbols : List UInt8 → List UInt8
  | [] => []
  | [a] => [symbolByte (a.toNat * 16 / 64), symbolByte (a.toNat * 16 % 64), 61, 61]
  | [a, b] =>
    let bits := (a.toNat * 256 + b.toNat) * 4
    [symbolByte (bits / 4096), symbolByte (bits / 64 % 64), symbolByte (bits % 64), 61]
  | a :: b :: c :: rest =>
    let bits := (a.toNat * 256 + b.toNat) * 256 + c.toNat
    symbolByte (bits / 262144) :: symbolByte (bits / 4096 % 64) :: symbolByte (bits / 64 % 64) ::
      symbolByte (bits % 64) :: symbols rest

theorem utf8Bytes_write (bytes : List UInt8) (out : String) :
    utf8Bytes (write bytes out) = utf8Bytes out ++ symbols bytes := by
  fun_induction write bytes out with
  | case1 => simp [symbols]
  | case2 out a bits =>
    have lt := a.toNat_lt
    have first : bits / 64 < 64 := by omega
    have second : bits % 64 < 64 := by omega
    simp [symbols, utf8EncodeChar_symbol first, utf8EncodeChar_symbol second]
    exact ⟨rfl, rfl, rfl⟩
  | case3 out a b bits =>
    have lt_a := a.toNat_lt
    have lt_b := b.toNat_lt
    have first : bits / 4096 < 64 := by omega
    have second : bits / 64 % 64 < 64 := by omega
    have third : bits % 64 < 64 := by omega
    simp [symbols, utf8EncodeChar_symbol first, utf8EncodeChar_symbol second,
      utf8EncodeChar_symbol third]
    exact ⟨rfl, rfl, rfl, rfl⟩
  | case4 out a b c rest bits ih =>
    have lt_a := a.toNat_lt
    have lt_b := b.toNat_lt
    have lt_c := c.toNat_lt
    have first : bits / 262144 < 64 := by omega
    have second : bits / 4096 % 64 < 64 := by omega
    have third : bits / 64 % 64 < 64 := by omega
    have fourth : bits % 64 < 64 := by omega
    rw [ih]
    simp [symbols, utf8EncodeChar_symbol first, utf8EncodeChar_symbol second,
      utf8EncodeChar_symbol third, utf8EncodeChar_symbol fourth]
    exact ⟨rfl, rfl, rfl, rfl⟩

theorem length_symbols (bytes : List UInt8) : (symbols bytes).length % 4 = 0 := by
  fun_induction symbols bytes with
  | case1 => rfl
  | case2 a => simp
  | case3 a b => simp
  | case4 a b c rest bits ih =>
    simp only [List.length_cons]
    omega

theorem lastSymbols_symbol {bits : Nat} (fits : bits < 64) (group : List UInt8)
    (offset place : Nat) (met : List (UInt8 × Nat)) :
    lastSymbols (symbolByte bits :: group) offset place none 0 met =
      lastSymbols group offset (place + 1) none 0 ((symbolByte bits, bits) :: met) := by
  rw [lastSymbols, if_neg (symbolByte_ne_pad bits fits), value?_symbolByte bits fits]

theorem ofNat_add_toNat (high : Nat) (byte : UInt8) :
    UInt8.ofNat (high * 256 + byte.toNat) = byte := by
  apply UInt8.toNat_inj.1
  rw [UInt8.toNat_ofNat']
  have := byte.toNat_lt
  omega

theorem decodeLast_one (a : UInt8) (offset : Nat) : decodeLast (symbols [a]) offset = .ok [a] := by
  have lt := a.toNat_lt
  rw [symbols, decodeLast, lastSymbols_symbol (by omega), lastSymbols_symbol (by omega)]
  have whole : a.toNat * 16 / 64 * 64 + a.toNat * 16 % 64 = a.toNat * 16 := by omega
  simp [lastSymbols, lastBytes, whole]

theorem decodeLast_two (a b : UInt8) (offset : Nat) :
    decodeLast (symbols [a, b]) offset = .ok [a, b] := by
  have lt_a := a.toNat_lt
  have lt_b := b.toNat_lt
  rw [symbols, decodeLast]
  generalize bits_eq : (a.toNat * 256 + b.toNat) * 4 = bits
  rw [lastSymbols_symbol (by omega), lastSymbols_symbol (by omega), lastSymbols_symbol (by omega)]
  have whole : (bits / 4096 * 64 + bits / 64 % 64) * 64 + bits % 64 = bits := by omega
  have first : bits / 1024 = a.toNat := by omega
  have second : bits / 4 = a.toNat * 256 + b.toNat := by omega
  have zero : bits % 4 = 0 := by omega
  simp [lastSymbols, lastBytes, whole, first, second, zero]

theorem bytes_of_bits {a b c : UInt8} {bits : Nat}
    (bits_eq : (a.toNat * 256 + b.toNat) * 256 + c.toNat = bits) :
    UInt8.ofNat (bits / 65536) = a ∧ UInt8.ofNat (bits / 256) = b ∧ UInt8.ofNat bits = c := by
  have lt_b := b.toNat_lt
  have lt_c := c.toNat_lt
  have first : bits / 65536 = a.toNat := by omega
  have second : bits / 256 = a.toNat * 256 + b.toNat := by omega
  rw [first, second, ← bits_eq]
  exact ⟨UInt8.ofNat_toNat, ofNat_add_toNat _ b, ofNat_add_toNat _ c⟩

theorem decodeLast_three (a b c : UInt8) (offset : Nat) :
    decodeLast (symbols [a, b, c]) offset = .ok [a, b, c] := by
  have lt_a := a.toNat_lt
  have lt_b := b.toNat_lt
  have lt_c := c.toNat_lt
  rw [symbols, decodeLast, symbols]
  generalize bits_eq : (a.toNat * 256 + b.toNat) * 256 + c.toNat = bits
  rw [lastSymbols_symbol (by omega), lastSymbols_symbol (by omega), lastSymbols_symbol (by omega),
    lastSymbols_symbol (by omega)]
  have whole : ((bits / 262144 * 64 + bits / 4096 % 64) * 64 + bits / 64 % 64) * 64 + bits % 64 =
      bits := by omega
  obtain ⟨first, second, third⟩ := bytes_of_bits bits_eq
  simp [lastSymbols, lastBytes, whole, first, second, third]

theorem symbols_ne_nil {bytes : List UInt8} (nonempty : bytes ≠ []) : symbols bytes ≠ [] := by
  fun_cases symbols bytes <;> simp_all

theorem decodeGroups_short {group : List UInt8} (short : group.length ≤ 4) (offset : Nat)
    (read : List UInt8) :
    decodeGroups group offset read = (decodeLast group offset).map (read.reverse ++ ·) := by
  rw [decodeGroups]
  rintro a b c d e rest rfl
  simp only [List.length_cons] at short
  omega

theorem decodeGroups_three (a b c : UInt8) {rest : List UInt8} (nonempty : rest ≠ [])
    (offset : Nat) (read : List UInt8) :
    decodeGroups (symbols (a :: b :: c :: rest)) offset read =
      decodeGroups (symbols rest) (offset + 4) (c :: b :: a :: read) := by
  have lt_a := a.toNat_lt
  have lt_b := b.toNat_lt
  have lt_c := c.toNat_lt
  -- a group is read in full only if a symbol stands behind it
  cases others : symbols rest with
  | nil => exact absurd others (symbols_ne_nil nonempty)
  | cons symbol more =>
    rw [symbols, others, decodeGroups]
    generalize bits_eq : (a.toNat * 256 + b.toNat) * 256 + c.toNat = bits
    rw [value?_symbolByte _ (by omega), value?_symbolByte _ (by omega),
      value?_symbolByte _ (by omega), value?_symbolByte _ (by omega)]
    have whole : ((bits / 262144 * 64 + bits / 4096 % 64) * 64 + bits / 64 % 64) * 64 + bits % 64 =
        bits := by omega
    obtain ⟨first, second, third⟩ := bytes_of_bits bits_eq
    simp only [whole, first, second, third]

theorem decodeGroups_symbols : ∀ {bytes : List UInt8}, bytes ≠ [] → ∀ (offset : Nat)
    (read : List UInt8), decodeGroups (symbols bytes) offset read = .ok (read.reverse ++ bytes)
  | [], nonempty, _, _ => absurd rfl nonempty
  | [a], _, offset, read => by
    rw [decodeGroups_short (by simp [symbols]), decodeLast_one]
    rfl
  | [a, b], _, offset, read => by
    rw [decodeGroups_short (by simp [symbols]), decodeLast_two]
    rfl
  | [a, b, c], _, offset, read => by
    rw [decodeGroups_short (by simp [symbols]), decodeLast_three]
    rfl
  | a :: b :: c :: next :: rest, _, offset, read => by
    rw [decodeGroups_three a b c (List.cons_ne_nil _ _),
      decodeGroups_symbols (List.cons_ne_nil _ _)]
    simp

theorem decode_encode (bytes : List UInt8) : decode (utf8Bytes (encode bytes)) = .ok bytes := by
  have encoded : utf8Bytes (encode bytes) = symbols bytes := by
    rw [encode, utf8Bytes_write]
    rfl
  -- the text is padded to whole groups, so that no symbol is left over
  have whole : ((symbols bytes).length % 4 == 1) = false := by
    simp [length_symbols bytes]
  rw [encoded, decode, whole]
  cases bytes with
  | nil => rfl
  | cons byte bytes => exact decodeGroups_symbols (List.cons_ne_nil _ _) 0 []

end Admission.Base64
