import Admission.Json.Printer
import Admission.Proofs.Json.NumberText
import Admission.Proofs.Number.Shortest
import Admission.Proofs.Text.Digits
import Admission.Proofs.Text.Utf8

/-! What the text of a number is read as. An integer reads back. The digits of a binary64 are those
of which it is the nearest one, but reading estimates them, so that it may be read as a neighbour;
few digits that count a small power of ten do read back. -/

set_option autoImplicit false

namespace Admission.Json

open Text (asciiBytes utf8Bytes)

theorem toNat_ofNat_of_isDigit {c : Char} (digit : c.isDigit = true) :
    (UInt8.ofNat c.toNat).toNat = c.toNat := by
  have bounds := Char.isDigit_iff_toNat.1 digit
  simp only [Char.reduceToNat] at bounds
  exact UInt8.toNat_ofNat_of_lt' (by simp only [UInt8.size]; omega)

theorem isDigit_ofNat {c : Char} (digit : c.isDigit = true) :
    isDigit (UInt8.ofNat c.toNat) = true := by
  have bounds := Char.isDigit_iff_toNat.1 digit
  simp only [Char.reduceToNat] at bounds
  simp [isDigit, UInt8.le_iff_toNat_le, toNat_ofNat_of_isDigit digit, bounds]

theorem isDigit_of_mem_asciiBytes {chars : List Char} (all : ∀ c ∈ chars, c.isDigit = true)
    {byte : UInt8} (mem : byte ∈ asciiBytes chars) : isDigit byte = true := by
  obtain ⟨c, inChars, rfl⟩ := List.mem_map.1 mem
  exact isDigit_ofNat (all c inChars)

theorem digitsValue_asciiBytes {chars : List Char} (all : ∀ c ∈ chars, c.isDigit = true) :
    digitsValue (asciiBytes chars) = Nat.ofDigitChars 10 chars 0 := by
  rw [digitsValue, Nat.ofDigitChars_eq_foldl]
  generalize 0 = value
  induction chars generalizing value with
  | nil => rfl
  | cons c chars ih =>
    rw [List.forall_mem_cons] at all
    rw [asciiBytes, List.map_cons, List.foldl_cons, List.foldl_cons, ← asciiBytes, ih all.2,
      toNat_ofNat_of_isDigit all.1]
    rfl

theorem isDigit_of_mem_toDigits {n : Nat} {c : Char} (mem : c ∈ Nat.toDigits 10 n) :
    c.isDigit = true :=
  Nat.isDigit_of_mem_toDigits (by decide) (by decide) mem

theorem ascii_of_isDigit {c : Char} (digit : c.isDigit = true) : c.toNat < 128 := by
  have bounds := Char.isDigit_iff_toNat.1 digit
  simp only [Char.reduceToNat] at bounds
  omega

theorem utf8Bytes_digits {digits : List Char} (all : ∀ c ∈ digits, c.isDigit = true) :
    utf8Bytes (String.ofList digits) = asciiBytes digits :=
  Text.utf8Bytes_of_ascii fun c mem => ascii_of_isDigit (all c mem)

theorem isDigit_of_mem_zeros {n : Nat} {c : Char} (mem : c ∈ List.replicate n '0') :
    c.isDigit = true := by
  rw [List.eq_of_mem_replicate mem]
  rfl

theorem asciiBytes_append (first second : List Char) :
    asciiBytes (first ++ second) = asciiBytes first ++ asciiBytes second :=
  List.map_append

theorem head?_of_asciiBytes {chars : List Char} (all : ∀ c ∈ chars, c.isDigit = true)
    (first : (asciiBytes chars).head? = some 48) : chars.head? = some '0' := by
  cases chars with
  | nil => simp [asciiBytes] at first
  | cons c chars =>
    have value : UInt8.ofNat c.toNat = 48 := by simpa [asciiBytes] using first
    have code := toNat_ofNat_of_isDigit (all c List.mem_cons_self)
    rw [value] at code
    have zero : c = '0' := Char.toNat_inj.1 code.symm
    rw [zero, List.head?_cons]

theorem eq_zero_of_head? {n : Nat} (first : (Nat.toDigits 10 n).head? = some '0') : n = 0 :=
  (Nat.eq_zero_or_pos n).elim id fun pos => absurd first (Text.head?_toDigits_ne_zero pos)

/-- The parts of a number's text in characters. Without digits in it there is no fraction. -/
structure Layout where
  whole : List Char
  fraction : List Char
  power : Option Int

namespace Layout

def numberText (layout : Layout) (negative : Bool) : NumberText where
  negative
  whole := asciiBytes layout.whole
  fraction := if layout.fraction = [] then none else some (asciiBytes layout.fraction)
  exponent := layout.power.map fun power =>
    (decide (power < 0), asciiBytes (Nat.toDigits 10 power.natAbs))

/-- The layout is one of a binary64 number whose first digit counts a small power of ten. -/
structure Valid (layout : Layout) : Prop where
  whole_digits : ∀ c ∈ layout.whole, c.isDigit = true
  whole_ne_nil : layout.whole ≠ []
  no_leading_zero : layout.whole.head? = some '0' → layout.whole = ['0']
  fraction_digits : ∀ c ∈ layout.fraction, c.isDigit = true
  pointed : layout.fraction ≠ [] ∨ layout.power.isSome = true
  small : ∀ power ∈ layout.power, power.natAbs ≤ exponentLimit

theorem Valid.wellFormed {layout : Layout} (valid : layout.Valid) (negative : Bool) :
    (layout.numberText negative).WellFormed where
  whole_digits _ mem := isDigit_of_mem_asciiBytes valid.whole_digits mem
  whole_ne_nil := by simpa [numberText, asciiBytes] using valid.whole_ne_nil
  no_leading_zero first := by
    have zero := valid.no_leading_zero (head?_of_asciiBytes valid.whole_digits first)
    simp [numberText, zero, asciiBytes]
  fraction_digits digits mem byte := by
    simp only [numberText, Option.mem_def] at mem
    split at mem
    · cases mem
    · cases mem
      exact isDigit_of_mem_asciiBytes valid.fraction_digits
  fraction_ne_nil digits mem := by
    simp only [numberText, Option.mem_def] at mem
    split at mem
    · cases mem
    · cases mem
      simpa [asciiBytes]
  exponent_digits exponent mem byte := by
    obtain ⟨power, -, rfl⟩ := Option.map_eq_some_iff.1 mem
    exact isDigit_of_mem_asciiBytes fun c => isDigit_of_mem_toDigits
  exponent_ne_nil exponent mem := by
    obtain ⟨power, -, rfl⟩ := Option.map_eq_some_iff.1 mem
    simp [asciiBytes, Nat.toDigits_ne_nil]

theorem digitsValue_toDigits (n : Nat) : digitsValue (asciiBytes (Nat.toDigits 10 n)) = n := by
  rw [digitsValue_asciiBytes fun c => isDigit_of_mem_toDigits, Nat.ofDigitChars_ten_toDigits]

theorem Valid.magnitude_eq {layout : Layout} (valid : layout.Valid) (negative : Bool) :
    (layout.numberText negative).magnitude =
      Nat.ofDigitChars 10 (layout.whole ++ layout.fraction) 0 *
        10 ^ (layout.power.getD 0 - layout.fraction.length) := by
  have fraction : (layout.numberText negative).fraction.getD [] = asciiBytes layout.fraction := by
    simp only [numberText]
    split <;> simp_all [asciiBytes]
  have power : (layout.numberText negative).exponentValue = layout.power.getD 0 := by
    simp only [numberText, NumberText.exponentValue]
    cases layout.power with
    | none => rfl
    | some power =>
      simp only [Option.map_some, Option.getD_some, digitsValue_toDigits, decide_eq_true_eq]
      split <;> omega
  have digits : ∀ c ∈ layout.whole ++ layout.fraction, c.isDigit = true := fun c mem =>
    (List.mem_append.1 mem).elim (valid.whole_digits c) (valid.fraction_digits c)
  rw [NumberText.magnitude, fraction, power, numberText, ← asciiBytes_append,
    digitsValue_asciiBytes digits]
  simp [asciiBytes]

theorem Valid.pointed_numberText {layout : Layout} (valid : layout.Valid) (negative : Bool) :
    (layout.numberText negative).fraction.isSome = true ∨
      (layout.numberText negative).exponent.isSome = true := by
  rcases valid.pointed with pointed | pointed
  · simp [numberText, pointed]
  · simp [numberText, pointed]

theorem Valid.small_numberText {layout : Layout} (valid : layout.Valid) (negative : Bool) :
    ∀ exponent ∈ (layout.numberText negative).exponent,
      digitsValue exponent.2 ≤ exponentLimit := by
  intro exponent mem
  obtain ⟨power, here, rfl⟩ := Option.map_eq_some_iff.1 mem
  rw [digitsValue_toDigits]
  exact valid.small power here

def ofDigits (digits : List Char) (exponent : Int) : Layout :=
  if -5 ≤ exponent ∧ exponent < 16 then
    if exponent < 0 then ⟨['0'], List.replicate (-exponent - 1).toNat '0' ++ digits, none⟩
    else if digits.length ≤ exponent.toNat + 1 then
      ⟨digits ++ List.replicate (exponent.toNat + 1 - digits.length) '0', ['0'], none⟩
    else ⟨digits.take (exponent.toNat + 1), digits.drop (exponent.toNat + 1), none⟩
  else ⟨digits.take 1, digits.drop 1, some exponent⟩

theorem valid_ofDigits {n : Nat} {exponent : Int} (zero : n = 0 → exponent = 0)
    (small : exponent.natAbs ≤ exponentLimit) : (ofDigits (Nat.toDigits 10 n) exponent).Valid := by
  have digits : ∀ c ∈ Nat.toDigits 10 n, c.isDigit = true := fun c => isDigit_of_mem_toDigits
  have length := Nat.length_toDigits_pos (b := 10) (n := n)
  unfold ofDigits
  split
  · split
    · refine ⟨by simp, by simp, fun _ => rfl, fun c mem => ?_, .inl ?_, by simp⟩
      · exact (List.mem_append.1 mem).elim isDigit_of_mem_zeros (digits c)
      · simp [Nat.toDigits_ne_nil]
    · split
      · refine ⟨fun c mem => ?_, ?_, fun first => ?_, by simp, .inl (by simp), by simp⟩
        · exact (List.mem_append.1 mem).elim (digits c) isDigit_of_mem_zeros
        · simp [Nat.toDigits_ne_nil]
        · have head : (Nat.toDigits 10 n).head? = some '0' := by
            cases eq : Nat.toDigits 10 n with
            | nil => exact absurd eq Nat.toDigits_ne_nil
            | cons c rest => simpa [eq] using first
          obtain rfl := eq_zero_of_head? head
          -- a leading zero is the only digit, and then the exponent is zero
          simp [zero rfl]
      · rename_i longer
        refine ⟨fun c mem => digits c (List.mem_of_mem_take mem), ?_, fun first => ?_,
          fun c mem => digits c (List.mem_of_mem_drop mem), .inl ?_, by simp⟩
        · simp [Nat.toDigits_ne_nil]
        · have head : (Nat.toDigits 10 n).head? = some '0' := by simpa [List.head?_take] using first
          obtain rfl := eq_zero_of_head? head
          simp at longer
        · simpa [List.drop_eq_nil_iff] using longer
  · refine ⟨fun c mem => digits c (List.mem_of_mem_take mem), ?_, fun first => ?_,
      fun c mem => digits c (List.mem_of_mem_drop mem), .inr rfl, ?_⟩
    · simp [Nat.toDigits_ne_nil]
    · cases eq : Nat.toDigits 10 n with
      | nil => exact absurd eq Nat.toDigits_ne_nil
      | cons c rest => simpa [eq] using first
    · rintro power ⟨⟩
      exact small

theorem length_whole_ofDigits (digits : List Char) (exponent : Int) :
    (ofDigits digits exponent).whole.length ≤ 16 := by
  unfold ofDigits
  split
  · split
    · simp
    · split
      · simp
        omega
      · simp
        omega
  · simp

theorem ofDigits_magnitude (n : Nat) (exponent : Int) :
    (Nat.ofDigitChars 10 ((ofDigits (Nat.toDigits 10 n) exponent).whole ++
        (ofDigits (Nat.toDigits 10 n) exponent).fraction) 0 : ℚ) *
      10 ^ ((ofDigits (Nat.toDigits 10 n) exponent).power.getD 0 -
        (ofDigits (Nat.toDigits 10 n) exponent).fraction.length) =
      n * 10 ^ (exponent + 1 - (Nat.toDigits 10 n).length) := by
  have length := Nat.length_toDigits_pos (b := 10) (n := n)
  unfold ofDigits
  split
  · split
    · have zero : Nat.ofDigitChars 10 ['0'] 0 = 0 := rfl
      rw [Nat.ofDigitChars_append, Nat.ofDigitChars_append, zero, Nat.ofDigitChars_replicate_zero,
        Nat.mul_zero, Nat.ofDigitChars_ten_toDigits]
      congr 2
      simp
      omega
    · split
      -- the zeros that fill up to the point count as powers of ten
      · have zeros : ∀ k : Nat, ((10 ^ k * n : Nat) : ℚ) = n * 10 ^ (k : Int) := fun k => by
          push_cast
          rw [zpow_natCast, mul_comm]
        have point : Nat.ofDigitChars 10 ['0'] (10 ^ (exponent.toNat + 1 -
            (Nat.toDigits 10 n).length) * n) =
            10 ^ (exponent.toNat + 1 - (Nat.toDigits 10 n).length + 1) * n := by
          rw [Nat.ofDigitChars_cons]
          simp [Nat.pow_succ, Nat.mul_comm, Nat.mul_left_comm]
        rw [Nat.ofDigitChars_append, Nat.ofDigitChars_append, Nat.ofDigitChars_ten_toDigits,
          Nat.ofDigitChars_replicate_zero, point, zeros, mul_assoc, ← zpow_add₀ (by norm_num)]
        congr 2
        simp
        omega
      · rw [List.take_append_drop, Nat.ofDigitChars_ten_toDigits]
        congr 2
        simp
        omega
  · rw [List.take_append_drop, Nat.ofDigitChars_ten_toDigits]
    congr 2
    simp
    omega

theorem utf8Bytes_zeros (n : Nat) :
    utf8Bytes (Binary64.zeros n) = asciiBytes (List.replicate n '0') :=
  utf8Bytes_digits fun _ => isDigit_of_mem_zeros

theorem bytes_positionalText {digits : List Char} (all : ∀ c ∈ digits, c.isDigit = true)
    (ne_nil : digits ≠ []) {exponent : Int} (positional : -5 ≤ exponent ∧ exponent < 16)
    (negative : Bool) :
    utf8Bytes (Binary64.positionalText floatNotation digits exponent) =
      ((ofDigits digits exponent).numberText negative).bytes := by
  unfold Binary64.positionalText ofDigits
  rw [if_pos positional]
  split
  · simp only [Text.utf8Bytes_append, utf8Bytes_zeros, utf8Bytes_digits all,
      show utf8Bytes "0." = [48, 46] from rfl]
    simp [numberText, NumberText.bytes, fractionBytes, exponentBytes, ne_nil, asciiBytes]
  · simp only
    split
    · simp only [floatNotation, if_true, Text.utf8Bytes_append, utf8Bytes_zeros,
        utf8Bytes_digits all, show utf8Bytes ".0" = [46, 48] from rfl]
      simp [numberText, NumberText.bytes, fractionBytes, exponentBytes, asciiBytes]
    · rename_i longer
      have fraction : digits.drop (exponent.toNat + 1) ≠ [] := by
        simpa [List.drop_eq_nil_iff] using longer
      simp only [Text.utf8Bytes_append, show utf8Bytes "." = [46] from rfl,
        utf8Bytes_digits fun c mem => all c (List.mem_of_mem_take mem),
        utf8Bytes_digits fun c mem => all c (List.mem_of_mem_drop mem)]
      simp [numberText, NumberText.bytes, fractionBytes, exponentBytes, fraction]

theorem bytes_exponentText {digits : List Char} (all : ∀ c ∈ digits, c.isDigit = true)
    (ne_nil : digits ≠ []) {exponent : Int} (positional : ¬(-5 ≤ exponent ∧ exponent < 16))
    (negative : Bool) :
    utf8Bytes (Binary64.exponentText floatNotation digits exponent) =
      ((ofDigits digits exponent).numberText negative).bytes := by
  have power : utf8Bytes (Binary64.digitText exponent.natAbs) =
      asciiBytes (Nat.toDigits 10 exponent.natAbs) := utf8Bytes_digits fun c => isDigit_of_mem_toDigits
  have sign : utf8Bytes (if exponent < 0 then "-" else if floatNotation.plus then "+" else "") =
      [if exponent < 0 then 45 else 43] := by
    split <;> rfl
  unfold Binary64.exponentText ofDigits
  rw [if_neg positional]
  cases digits with
  | nil => exact absurd rfl ne_nil
  | cons d rest =>
    rw [List.forall_mem_cons] at all
    have first : utf8Bytes d.toString = [UInt8.ofNat d.toNat] := by
      rw [Text.utf8Bytes_eq]
      simp [Char.toString, Text.utf8EncodeChar_of_ascii (ascii_of_isDigit all.1)]
    simp only [Text.utf8Bytes_append, power, sign, show utf8Bytes "e" = [101] from rfl]
    cases rest with
    | nil =>
      rw [first]
      simp [numberText, NumberText.bytes, fractionBytes, exponentBytes, asciiBytes]
    | cons d' rest =>
      simp only [Text.utf8Bytes_append, first, show utf8Bytes "." = [46] from rfl,
        utf8Bytes_digits all.2]
      simp [numberText, NumberText.bytes, fractionBytes, exponentBytes, asciiBytes]

end Layout

theorem wellFormed_integer (negative : Bool) (n : Nat) :
    NumberText.WellFormed ⟨negative, asciiBytes (Nat.toDigits 10 n), none, none⟩ where
  whole_digits _ mem := isDigit_of_mem_asciiBytes (fun c => isDigit_of_mem_toDigits) mem
  whole_ne_nil := by simp [asciiBytes, Nat.toDigits_ne_nil]
  no_leading_zero first := by
    obtain rfl := eq_zero_of_head? (head?_of_asciiBytes (fun c => isDigit_of_mem_toDigits) first)
    rfl
  fraction_digits _ mem := by cases mem
  fraction_ne_nil _ mem := by cases mem
  exponent_digits _ mem := by cases mem
  exponent_ne_nil _ mem := by cases mem

theorem value_integer {negative : Bool} {n : Nat} {value : Int} (range : IsInteger value)
    (eq : value = if negative then -(n : Int) else n) (nonzero : negative = true → n ≠ 0)
    (start stop : Nat) :
    NumberText.value ⟨negative, asciiBytes (Nat.toDigits 10 n), none, none⟩ start stop =
      .ok (.integer value range) := by
  subst eq
  have digits := Layout.digitsValue_toDigits n
  cases negative with
  | false =>
    have fits : IsInteger (n : Int) := range
    simp [NumberText.value, digits, fits]
  | true =>
    have fits : IsInteger (-(n : Int)) := range
    simp [NumberText.value, digits, fits, nonzero rfl]

def leadingExponent (x : Binary64) : Int :=
  x.shortest.exponent + (Nat.toDigits 10 x.shortest.digits).length - 1

theorem leadingExponent_of_isZero {x : Binary64} (isZero : x.isZero = true) :
    leadingExponent x = 0 := by
  have shortest : x.shortest = ⟨0, 0⟩ := by simp [Binary64.shortest, isZero]
  simp [leadingExponent, shortest]

theorem leadingExponent_of_digits_zero {x : Binary64} (zero : x.shortest.digits = 0) :
    leadingExponent x = 0 := by
  cases isZero : x.isZero with
  | true => exact leadingExponent_of_isZero isZero
  | false =>
    have nonzero := Binary64.significand_pos_of_not_isZero isZero
    have pos := (Binary64.range_of_ofDecimal (Binary64.ofDecimal_shortest x) nonzero).1
    omega

theorem leadingExponent_small (x : Binary64) : (leadingExponent x).natAbs ≤ exponentLimit := by
  cases isZero : x.isZero with
  | true => simp [leadingExponent_of_isZero isZero]
  | false =>
    have nonzero := Binary64.significand_pos_of_not_isZero isZero
    have bounds := Binary64.leading_exponent_bounds (Binary64.ofDecimal_shortest x) nonzero
    simp only [leadingExponent, exponentLimit]
    omega

def printed (x : Binary64) : NumberText :=
  (Layout.ofDigits (Nat.toDigits 10 x.shortest.digits) (leadingExponent x)).numberText x.negative

theorem valid_printed (x : Binary64) :
    (Layout.ofDigits (Nat.toDigits 10 x.shortest.digits) (leadingExponent x)).Valid :=
  Layout.valid_ofDigits leadingExponent_of_digits_zero (leadingExponent_small x)

theorem pointed_printed (x : Binary64) :
    (printed x).fraction.isSome = true ∨ (printed x).exponent.isSome = true :=
  (valid_printed x).pointed_numberText x.negative

theorem small_printed (x : Binary64) :
    ∀ exponent ∈ (printed x).exponent, digitsValue exponent.2 ≤ exponentLimit :=
  (valid_printed x).small_numberText x.negative

theorem magnitude_printed (x : Binary64) :
    (printed x).magnitude = x.shortest.digits * 10 ^ x.shortest.exponent := by
  rw [printed, (valid_printed x).magnitude_eq, Layout.ofDigits_magnitude]
  congr 2
  simp only [leadingExponent]
  omega

theorem digitsValue_lt {digits : List UInt8} (all : ∀ byte ∈ digits, isDigit byte = true) :
    digitsValue digits < 10 ^ digits.length := by
  suffices lt : ∀ value, digits.foldl (fun value digit => 10 * value + (digit.toNat - 48)) value <
      (value + 1) * 10 ^ digits.length by simpa [digitsValue] using lt 0
  intro value
  induction digits generalizing value with
  | nil => simp
  | cons digit digits ih =>
    rw [List.forall_mem_cons] at all
    have digit_le : digit.toNat - 48 < 10 := by
      have bounds := all.1
      simp only [isDigit, Bool.and_eq_true, decide_eq_true_eq, UInt8.le_iff_toNat_le] at bounds
      have le : digit.toNat ≤ 57 := bounds.2
      omega
    calc digits.foldl _ (10 * value + (digit.toNat - 48))
        < (10 * value + (digit.toNat - 48) + 1) * 10 ^ digits.length := ih all.2 _
      _ ≤ (value + 1) * 10 * 10 ^ digits.length := Nat.mul_le_mul_right _ (by omega)
      _ = (value + 1) * 10 ^ (digits.length + 1) := by rw [Nat.pow_succ]; ring

theorem whole_printed_lt (x : Binary64) : digitsValue (printed x).whole < 1 <<< 64 := by
  have all := ((valid_printed x).wellFormed x.negative).whole_digits
  have length_le : (printed x).whole.length ≤ 16 := by
    simpa [printed, Layout.numberText, asciiBytes] using Layout.length_whole_ofDigits _ _
  calc digitsValue (printed x).whole < 10 ^ (printed x).whole.length := digitsValue_lt all
    _ ≤ 10 ^ 16 := Nat.pow_le_pow_right (by decide) length_le
    _ ≤ 1 <<< 64 := by decide

/-- The texts of the three greatest binary64 numbers, which rounding twice could put out of range,
stay in it. -/
theorem estimate_printed_greatest : ∀ negative : Bool, ∀ less : Fin 3,
    let x : Binary64 := ⟨negative, 2 ^ 53 - 1 - less, 971, by revert less; decide⟩
    (Binary64.estimate (printed x).negative (printed x).decimal.digits
      ((printed x).decimal.exponent + (printed x).exponentValue)).isSome = true := by
  decide +kernel

/-- The text of a binary64 is read as a binary64, which need not be the same one. -/
theorem exists_value_printed (x : Binary64) :
    ∃ y, ∀ start stop, (printed x).value start stop = .ok (.float y) := by
  have pointed := pointed_printed x
  have small := small_printed x
  by_cases below : x.exponent < 971 ∨ x.significand + 4 ≤ 2 ^ 53
  · refine NumberText.exists_float pointed small (whole_printed_lt x) ?_
    rw [magnitude_printed]
    exact Binary64.slack_le_greatest (Binary64.ofDecimal_shortest x) below
  · obtain ⟨short, -, le, -⟩ := Binary64.canonical_iff.1 x.canonical
    obtain ⟨negative, significand, exponent, canonical⟩ := x
    simp only at below short le
    obtain rfl : exponent = 971 := by omega
    obtain ⟨less, lt, rfl⟩ : ∃ less, less < 3 ∧ significand = 2 ^ 53 - 1 - less :=
      ⟨2 ^ 53 - 1 - significand, by omega, by omega⟩
    obtain ⟨y, estimated⟩ := Option.isSome_iff_exists.1 (estimate_printed_greatest negative ⟨less, lt⟩)
    exact ⟨y, NumberText.value_eq_float pointed small estimated⟩

theorem bytes_text_float (x : Binary64) :
    utf8Bytes (x.text floatNotation) = signBytes x.negative ++ (printed x).bytes := by
  unfold printed
  unfold leadingExponent
  generalize exponent_eq : x.shortest.exponent +
    (Nat.toDigits 10 x.shortest.digits).length - 1 = exponent
  have all : ∀ c ∈ Nat.toDigits 10 x.shortest.digits, c.isDigit = true :=
    fun c => isDigit_of_mem_toDigits
  have magnitude (negative : Bool) :
      utf8Bytes (if (decide (-5 ≤ exponent) && decide (exponent < 16)) = true then
        Binary64.positionalText floatNotation (Nat.toDigits 10 x.shortest.digits) exponent
      else Binary64.exponentText floatNotation (Nat.toDigits 10 x.shortest.digits) exponent) =
      ((Layout.ofDigits (Nat.toDigits 10 x.shortest.digits) exponent).numberText
        negative).bytes := by
    simp only [Bool.and_eq_true, decide_eq_true_eq]
    split
    · exact Layout.bytes_positionalText all Nat.toDigits_ne_nil (by assumption) negative
    · exact Layout.bytes_exponentText all Nat.toDigits_ne_nil (by assumption) negative
  unfold Binary64.text
  simp only [exponent_eq, floatNotation] at magnitude ⊢
  cases x.negative with
  | false => exact magnitude false
  | true =>
    rw [if_pos rfl, Text.utf8Bytes_append, ← magnitude true]
    rfl

/-- The number that the text of a number is read as. -/
def Number.reread : Number → Number
  | .integer value range => .integer value range
  | .float x =>
    match (printed x).value 0 0 with
    | .ok value => value
    | .error _ => .float x

theorem value_printed (x : Binary64) (start stop : Nat) :
    (printed x).value start stop = .ok (Number.reread (.float x)) := by
  obtain ⟨y, value⟩ := exists_value_printed x
  rw [Number.reread, value, value]

theorem Number.exists_reread_float (x : Binary64) : ∃ y, (Number.float x).reread = .float y := by
  obtain ⟨y, value⟩ := exists_value_printed x
  exact ⟨y, by rw [Number.reread, value]⟩

theorem exists_numberText (number : Number) : ∃ text : NumberText, text.WellFormed ∧
    utf8Bytes number.text = signBytes text.negative ++ text.bytes ∧
    ∀ start stop, text.value start stop = .ok number.reread := by
  cases number with
  | integer value range =>
    cases value with
    | ofNat n =>
      refine ⟨_, wellFormed_integer false n, ?_, value_integer range rfl (by simp)⟩
      have text_eq : Number.text (.integer (.ofNat n) range) = Nat.repr n := rfl
      have digits : utf8Bytes (Nat.repr n) = asciiBytes (Nat.toDigits 10 n) :=
        utf8Bytes_digits fun c => isDigit_of_mem_toDigits
      rw [text_eq, digits]
      simp [NumberText.bytes, fractionBytes, exponentBytes, signBytes]
    | negSucc n =>
      refine ⟨_, wellFormed_integer true (n + 1), ?_, value_integer range rfl (by simp)⟩
      have text_eq : Number.text (.integer (.negSucc n) range) = "-" ++ Nat.repr (n + 1) := rfl
      have digits : utf8Bytes (Nat.repr (n + 1)) = asciiBytes (Nat.toDigits 10 (n + 1)) :=
        utf8Bytes_digits fun c => isDigit_of_mem_toDigits
      rw [text_eq, Text.utf8Bytes_append, digits]
      simp [NumberText.bytes, fractionBytes, exponentBytes, signBytes,
        show utf8Bytes "-" = [45] from rfl]
  | float x =>
    exact ⟨_, (valid_printed x).wellFormed x.negative, bytes_text_float x, value_printed x⟩

def Number.ReadsBack (number : Number) : Prop :=
  number.reread = number

/-- A binary64 reads back if its text has few digits that count a small power of ten. -/
theorem Number.readsBack_of_short {x : Binary64} (short : (printed x).decimal.digits < 2 ^ 53)
    (near : ((printed x).decimal.exponent + (printed x).exponentValue).natAbs ≤
      Binary64.exactTenPowers) : (Number.float x).ReadsBack := by
  have value := NumberText.value_eq_nearest (pointed_printed x) (small_printed x) short near
    (Binary64.ofDecimal_shortest x) (magnitude_printed x) 0 0
  rw [value_printed] at value
  exact Except.ok.inj value

end Admission.Json
