import Admission.Json.Token
import Admission.Proofs.Number.Estimate

/-! The text of a number is scanned to its end if nothing that could belong to a number follows. With
a point or an exponent in it the text means a binary64: there is one unless the number comes near the
greatest, and it is the nearest one where the digits are few and the exponent is small. -/

set_option autoImplicit false

namespace Admission.Json

/-- What follows begins with no byte of a number: with a blank, a comma or a closing bracket. -/
def Stops (rest : List UInt8) : Prop :=
  ∀ byte ∈ rest.head?, isBlank byte = true ∨ byte = 44 ∨ byte = 93 ∨ byte = 125

theorem eq_of_isBlank {byte : UInt8} (blank : isBlank byte = true) :
    byte = 32 ∨ byte = 9 ∨ byte = 10 ∨ byte = 13 := by
  simpa [isBlank, or_assoc] using blank

theorem Stops.head {byte : UInt8} {rest : List UInt8} (stops : Stops (byte :: rest)) :
    byte = 32 ∨ byte = 9 ∨ byte = 10 ∨ byte = 13 ∨ byte = 44 ∨ byte = 93 ∨ byte = 125 := by
  rcases stops byte rfl with blank | separator
  · rcases eq_of_isBlank blank with eq | eq | eq | eq <;> simp [eq]
  · rcases separator with eq | eq | eq <;> simp [eq]

def NoDigit (rest : List UInt8) : Prop :=
  ∀ byte ∈ rest.head?, isDigit byte = false

theorem NoDigit.cons {byte : UInt8} (rest : List UInt8) (noDigit : isDigit byte = false) :
    NoDigit (byte :: rest) := by
  rintro byte ⟨⟩
  exact noDigit

theorem Stops.noDigit {rest : List UInt8} (stops : Stops rest) : NoDigit rest := by
  cases rest with
  | nil => simp [NoDigit]
  | cons byte rest =>
    refine .cons rest ?_
    rcases stops.head with rfl | rfl | rfl | rfl | rfl | rfl | rfl <;> rfl

theorem spanDigits_append {digits rest : List UInt8} (all : ∀ byte ∈ digits, isDigit byte = true)
    (noDigit : NoDigit rest) (met : List UInt8) :
    spanDigits (digits ++ rest) met = (met.reverse ++ digits, rest) := by
  induction digits generalizing met with
  | nil =>
    cases rest with
    | nil => simp [spanDigits]
    | cons byte rest => simp [spanDigits, noDigit byte rfl]
  | cons digit digits ih =>
    rw [List.forall_mem_cons] at all
    simp [spanDigits, all.1, ih all.2]

theorem le_foldl_digits (digits : List UInt8) (value : Nat) :
    value ≤ digits.foldl (fun value digit => 10 * value + (digit.toNat - 48)) value := by
  induction digits generalizing value with
  | nil => exact Nat.le_refl _
  | cons digit digits ih =>
    have grows : value ≤ 10 * value + (digit.toNat - 48) := by omega
    exact Nat.le_trans grows (ih _)

theorem exponentOverflow_eq_none {digits : List UInt8} {value : Nat} (count : Nat)
    (small : digits.foldl (fun value digit => 10 * value + (digit.toNat - 48)) value ≤ exponentLimit) :
    exponentOverflow digits value count = none := by
  induction digits generalizing value count with
  | nil => rfl
  | cons digit digits ih =>
    rw [List.foldl_cons] at small
    -- the values of ever more digits only grow
    rw [exponentOverflow, if_neg (Nat.not_lt.2 (Nat.le_trans (le_foldl_digits digits _) small))]
    exact ih (count + 1) small

def fractionBytes : Option (List UInt8) → List UInt8
  | none => []
  | some digits => 46 :: digits

def exponentBytes : Option (Bool × List UInt8) → List UInt8
  | none => []
  | some (minus, digits) => 101 :: (if minus then 45 else 43) :: digits

def signBytes (negative : Bool) : List UInt8 :=
  if negative then [45] else []

/-- The spellings of an exponent: the letter in either case, and a plus that may be left out. -/
inductive SpellsExponent : List UInt8 → Option (Bool × List UInt8) → Prop where
  | none : SpellsExponent [] none
  | bare {letter : UInt8} (isLetter : letter = 101 ∨ letter = 69) (digits : List UInt8) :
    SpellsExponent (letter :: digits) (some (false, digits))
  | signed {letter : UInt8} (isLetter : letter = 101 ∨ letter = 69) (minus : Bool)
    (digits : List UInt8) :
    SpellsExponent (letter :: (if minus then 45 else 43) :: digits) (some (minus, digits))

theorem SpellsExponent.exists_letter {bytes : List UInt8} {power : Bool × List UInt8}
    (spells : SpellsExponent bytes (some power)) :
    ∃ letter behind, bytes = letter :: behind ∧ (letter = 101 ∨ letter = 69) := by
  cases spells with
  | bare isLetter | signed isLetter => exact ⟨_, _, rfl, isLetter⟩

theorem spellsExponent_exponentBytes (exponent : Option (Bool × List UInt8)) :
    SpellsExponent (exponentBytes exponent) exponent := by
  cases exponent with
  | none => exact .none
  | some exponent => exact .signed (.inl rfl) exponent.1 exponent.2

namespace NumberText

def bytes (text : NumberText) : List UInt8 :=
  text.whole ++ (fractionBytes text.fraction ++ exponentBytes text.exponent)

/-- Parts that are numbers' parts: digits, of which the whole ones have no leading zero. -/
structure WellFormed (text : NumberText) : Prop where
  whole_digits : ∀ byte ∈ text.whole, isDigit byte = true
  whole_ne_nil : text.whole ≠ []
  no_leading_zero : text.whole.head? = some 48 → text.whole = [48]
  fraction_digits : ∀ digits ∈ text.fraction, ∀ byte ∈ digits, isDigit byte = true
  fraction_ne_nil : ∀ digits ∈ text.fraction, digits ≠ []
  exponent_digits : ∀ exponent ∈ text.exponent, ∀ byte ∈ exponent.2, isDigit byte = true
  exponent_ne_nil : ∀ exponent ∈ text.exponent, exponent.2 ≠ []

end NumberText

theorem ne_sign_of_isDigit {byte : UInt8} (digit : isDigit byte = true) : byte ≠ 43 ∧ byte ≠ 45 := by
  constructor <;> rintro rfl <;> cases digit

theorem scanExponent_digits (text : NumberText) {letter : UInt8} {behind : List UInt8} {minus : Bool}
    {digits : List UInt8} (spells : SpellsExponent (letter :: behind) (some (minus, digits)))
    {rest : List UInt8} (all : ∀ byte ∈ digits, isDigit byte = true) (ne_nil : digits ≠ [])
    (noDigit : NoDigit rest) (offset : Nat) : ∃ start stop,
      scanExponent text (behind ++ rest) offset =
        ⟨.number ({ text with exponent := some (minus, digits) }.value start stop), stop, rest⟩ := by
  have span := spanDigits_append all noDigit []
  cases digits with
  | nil => exact absurd rfl ne_nil
  | cons digit digits =>
    have head := all digit List.mem_cons_self
    rw [List.cons_append] at span
    cases spells with
    | bare _ =>
      obtain ⟨noPlus, noMinus⟩ := ne_sign_of_isDigit head
      refine ⟨offset, offset + (digit :: digits).length, ?_⟩
      simp [scanExponent, noPlus, noMinus, head, span]
    | signed _ =>
      refine ⟨offset + 1, offset + 1 + (digit :: digits).length, ?_⟩
      cases minus <;> simp [scanExponent, head, span]

theorem SpellsExponent.noDigit {bytes : List UInt8} {exponent : Option (Bool × List UInt8)}
    (spells : SpellsExponent bytes exponent) {rest : List UInt8} (noDigit : NoDigit rest) :
    NoDigit (bytes ++ rest) := by
  cases exponent with
  | none =>
    cases spells
    exact noDigit
  | some power =>
    obtain ⟨letter, behind, rfl, isLetter⟩ := spells.exists_letter
    refine .cons _ ?_
    rcases isLetter with rfl | rfl <;> rfl

theorem noDigit_fractionBytes (fraction : Option (List UInt8)) {rest : List UInt8}
    (noDigit : NoDigit rest) : NoDigit (fractionBytes fraction ++ rest) := by
  cases fraction with
  | none => exact noDigit
  | some digits => exact .cons _ rfl

theorem scanAfterWhole_stops (text : NumberText) {rest : List UInt8} (stops : Stops rest)
    (offset : Nat) :
    scanAfterWhole text rest offset = ⟨.number (text.value offset offset), offset, rest⟩ := by
  cases rest with
  | nil => rfl
  | cons byte rest => rcases stops.head with rfl | rfl | rfl | rfl | rfl | rfl | rfl <;> rfl

/-- What stands behind the digits of the fraction is taken for the exponent. -/
theorem scanAfterWhole_fraction (text : NumberText) {first : UInt8} {digits exponent : List UInt8}
    {power : Option (Bool × List UInt8)} (spells : SpellsExponent exponent power)
    (all : ∀ byte ∈ first :: digits, isDigit byte = true)
    (power_digits : ∀ exponent ∈ power, ∀ byte ∈ exponent.2, isDigit byte = true)
    (power_ne_nil : ∀ exponent ∈ power, exponent.2 ≠ []) {rest : List UInt8}
    (stops : Stops rest) (offset : Nat) (noPower : text.exponent = none) : ∃ start stop,
      scanAfterWhole text (46 :: ((first :: digits) ++ (exponent ++ rest))) offset =
        ⟨.number ({ text with fraction := some (first :: digits), exponent := power }.value start
          stop), stop, rest⟩ := by
  -- the digits behind the point end where the exponent or the rest begins
  have span := spanDigits_append all (spells.noDigit stops.noDigit) []
  rw [scanAfterWhole, span]
  cases power with
  | none =>
    cases spells
    refine ⟨offset + 1 + (first :: digits).length, offset + 1 + (first :: digits).length, ?_⟩
    rw [← noPower]
    cases rest with
    | nil => rfl
    | cons byte rest => rcases stops.head with rfl | rfl | rfl | rfl | rfl | rfl | rfl <;> rfl
  | some power =>
    obtain ⟨minus, power⟩ := power
    obtain ⟨letter, behind, rfl, isLetter⟩ := spells.exists_letter
    obtain ⟨start, stop, scanned⟩ := scanExponent_digits
      { text with fraction := some (first :: digits) } spells (power_digits _ rfl)
      (power_ne_nil _ rfl) stops.noDigit (offset + 1 + (first :: digits).length + 1)
    refine ⟨start, stop, ?_⟩
    rcases isLetter with rfl | rfl <;> exact scanned

theorem scanAfterWhole_bytes {text : NumberText} (wellFormed : text.WellFormed)
    {exponent : List UInt8} (spells : SpellsExponent exponent text.exponent) {rest : List UInt8}
    (stops : Stops rest) (offset : Nat) : ∃ start stop,
      scanAfterWhole ⟨text.negative, text.whole, none, none⟩
          (fractionBytes text.fraction ++ (exponent ++ rest)) offset =
        ⟨.number (text.value start stop), stop, rest⟩ := by
  obtain ⟨negative, whole, fraction, power⟩ := text
  cases fraction with
  | some fraction =>
    cases fraction with
    | nil => exact absurd rfl (wellFormed.fraction_ne_nil _ rfl)
    | cons first fraction =>
      exact scanAfterWhole_fraction ⟨negative, whole, none, none⟩ spells
        (wellFormed.fraction_digits _ rfl) wellFormed.exponent_digits wellFormed.exponent_ne_nil stops
        offset rfl
  | none =>
    cases power with
    | none =>
      cases spells
      exact ⟨offset, offset, scanAfterWhole_stops _ stops offset⟩
    | some power =>
      obtain ⟨minus, digits⟩ := power
      obtain ⟨letter, behind, rfl, isLetter⟩ := spells.exists_letter
      obtain ⟨start, stop, scanned⟩ := scanExponent_digits ⟨negative, whole, none, none⟩ spells
        (wellFormed.exponent_digits _ rfl) (wellFormed.exponent_ne_nil _ rfl) stops.noDigit
        (offset + 1)
      refine ⟨start, stop, ?_⟩
      rcases isLetter with rfl | rfl <;> exact scanned

/-- A number after its sign is scanned to its end. -/
theorem scanNumber_spelled {text : NumberText} (wellFormed : text.WellFormed)
    {exponent : List UInt8} (spells : SpellsExponent exponent text.exponent) {rest : List UInt8}
    (stops : Stops rest) (offset : Nat) : ∃ start stop,
      scanNumber text.negative
          (text.whole ++ (fractionBytes text.fraction ++ (exponent ++ rest))) offset =
        ⟨.number (text.value start stop), stop, rest⟩ := by
  have noDigit : NoDigit (fractionBytes text.fraction ++ (exponent ++ rest)) :=
    noDigit_fractionBytes text.fraction (spells.noDigit stops.noDigit)
  have scanned := fun offset => scanAfterWhole_bytes wellFormed spells stops offset
  generalize fractionBytes text.fraction ++ (exponent ++ rest) = behind at *
  cases eq : text.whole with
  | nil => exact absurd eq wellFormed.whole_ne_nil
  | cons first whole =>
    rw [eq] at scanned
    have digits : ∀ byte ∈ first :: whole, isDigit byte = true := eq ▸ wellFormed.whole_digits
    -- a zero in front is scanned by itself, and well-formed digits have none behind it
    by_cases zero : first = 48
    · have single := wellFormed.no_leading_zero (by rw [eq, zero]; rfl)
      obtain ⟨rfl, rfl⟩ : first = 48 ∧ whole = [] := by simpa [eq] using single
      obtain ⟨start, stop, scanned⟩ := scanned (offset + 1)
      refine ⟨start, stop, ?_⟩
      rw [← scanned]
      cases behind with
      | nil => rfl
      | cons byte behind => simp [scanNumber, noDigit byte rfl]
    · obtain ⟨start, stop, scanned⟩ := scanned (offset + (first :: whole).length)
      refine ⟨start, stop, ?_⟩
      have span := spanDigits_append digits noDigit []
      rw [List.cons_append] at span
      rw [← scanned, List.cons_append, scanNumber]
      · simp [digits first List.mem_cons_self, span]
      · exact zero

namespace NumberText

def exponentValue (text : NumberText) : Int :=
  match text.exponent with
  | none => 0
  | some (minus, digits) => if minus then -digitsValue digits else digitsValue digits

def magnitude (text : NumberText) : ℚ :=
  digitsValue (text.whole ++ text.fraction.getD []) *
    10 ^ (text.exponentValue - (text.fraction.getD []).length)

/-- A text with a point or an exponent means a binary64. -/
theorem value_eq_float {text : NumberText}
    (pointed : text.fraction.isSome = true ∨ text.exponent.isSome = true)
    (small : ∀ exponent ∈ text.exponent, digitsValue exponent.2 ≤ exponentLimit) {x : Binary64}
    (estimated : Binary64.estimate text.negative text.decimal.digits
      (text.decimal.exponent + text.exponentValue) = some x) (start stop : Nat) :
    text.value start stop = .ok (.float x) := by
  obtain ⟨negative, whole, fraction, power⟩ := text
  cases power with
  | none =>
    cases fraction with
    | none => simp at pointed
    | some fraction =>
      simp only [exponentValue, add_zero] at estimated
      simp [value, estimated]
  | some power =>
    obtain ⟨minus, power⟩ := power
    -- only an exponent that is too long is refused without being counted
    have fits : exponentOverflow power 0 0 = none := exponentOverflow_eq_none 0 (small _ rfl)
    simp only [exponentValue] at estimated
    simp [value, fits, estimated]

theorem takeDigits_eq {digits : List UInt8} {value : Nat}
    (fits : digits.foldl (fun value digit => 10 * value + (digit.toNat - 48)) value < 1 <<< 64) :
    takeDigits digits value =
      (digits.foldl (fun value digit => 10 * value + (digit.toNat - 48)) value, 0) := by
  induction digits generalizing value with
  | nil => rfl
  | cons digit digits ih =>
    rw [List.foldl_cons] at fits ⊢
    rw [takeDigits]
    simp only [if_pos (Nat.lt_of_le_of_lt (le_foldl_digits digits _) fits), ih fits]

theorem mul_ten_pow_le_foldl (digits : List UInt8) (value : Nat) :
    value * 10 ^ digits.length ≤
      digits.foldl (fun value digit => 10 * value + (digit.toNat - 48)) value := by
  induction digits generalizing value with
  | nil => simp
  | cons digit digits ih =>
    calc value * 10 ^ (digits.length + 1) = 10 * value * 10 ^ digits.length := by
          rw [Nat.pow_succ]; ring
      _ ≤ (10 * value + (digit.toNat - 48)) * 10 ^ digits.length :=
          Nat.mul_le_mul_right _ (Nat.le_add_right _ _)
      _ ≤ _ := ih _

theorem takeDigits_le (digits : List UInt8) {value : Nat} (fits : value < 1 <<< 64) :
    (takeDigits digits value).1 < 1 <<< 64 ∧ (takeDigits digits value).2 ≤ digits.length ∧
      (takeDigits digits value).1 * 10 ^ (takeDigits digits value).2 ≤
        digits.foldl (fun value digit => 10 * value + (digit.toNat - 48)) value := by
  induction digits generalizing value with
  | nil => simpa [takeDigits] using fits
  | cons digit digits ih =>
    rw [takeDigits]
    split
    · rename_i longer
      obtain ⟨taken_lt, left_le, le⟩ := ih longer
      exact ⟨taken_lt, Nat.le_succ_of_le left_le, le⟩
    · exact ⟨fits, Nat.le_refl _, mul_ten_pow_le_foldl (digit :: digits) value⟩

theorem takeDigits_of_short {digits : List UInt8} {value : Nat}
    (short : (takeDigits digits value).1 < 2 ^ 53) : takeDigits digits value =
      (digits.foldl (fun value digit => 10 * value + (digit.toNat - 48)) value, 0) := by
  induction digits generalizing value with
  | nil => rfl
  | cons digit digits ih =>
    rw [takeDigits] at short ⊢
    split
    · rename_i longer
      rw [if_pos longer] at short
      exact ih short
    · rename_i longer
      rw [if_neg longer] at short
      have digit_lt := digit.toNat_lt
      simp only [Nat.shiftLeft_eq] at longer
      omega

variable {text : NumberText}

theorem digitsValue_append (whole fraction : List UInt8) : digitsValue (whole ++ fraction) =
    fraction.foldl (fun value digit => 10 * value + (digit.toNat - 48)) (digitsValue whole) := by
  rw [digitsValue, List.foldl_append, ← digitsValue]

/-- If the digits before the point all count, the number that counts is no greater than the one that
is meant. -/
theorem decimal_le (fits : digitsValue text.whole < 1 <<< 64) : text.decimal.digits < 1 <<< 64 ∧
    text.decimal.digits * (10 : ℚ) ^ (text.decimal.exponent + text.exponentValue) ≤
      text.magnitude := by
  obtain ⟨taken_lt, left_le, le⟩ := takeDigits_le (text.fraction.getD []) fits
  have whole : takeDigits text.whole 0 = (digitsValue text.whole, 0) := takeDigits_eq fits
  simp only [decimal, whole, magnitude, digitsValue_append]
  generalize takeDigits (text.fraction.getD []) (digitsValue text.whole) = taken at *
  generalize (text.fraction.getD []).foldl _ (digitsValue text.whole) = all at *
  refine ⟨taken_lt, ?_⟩
  have exponent_eq : ((0 : Nat) : Int) - ((text.fraction.getD []).length - taken.2 : Nat) +
      text.exponentValue = taken.2 + (text.exponentValue - (text.fraction.getD []).length) := by
    omega
  rw [exponent_eq, zpow_add₀ (by norm_num), zpow_natCast, ← mul_assoc]
  exact mul_le_mul_of_nonneg_right (by exact_mod_cast le) (by positivity)

theorem decimal_of_short (short : text.decimal.digits < 2 ^ 53) :
    text.decimal.digits * (10 : ℚ) ^ (text.decimal.exponent + text.exponentValue) =
      text.magnitude := by
  simp only [decimal] at short ⊢
  have fraction := takeDigits_of_short short
  have whole_le : (takeDigits text.whole 0).1 < 2 ^ 53 := by
    refine Nat.lt_of_le_of_lt (le_foldl_digits (text.fraction.getD []) _) ?_
    rwa [fraction] at short
  have whole : takeDigits text.whole 0 = (digitsValue text.whole, 0) := takeDigits_of_short whole_le
  rw [whole] at fraction
  simp only [whole, fraction, magnitude, digitsValue_append]
  congr 2
  simp
  omega

/-- A text is read if its number stays in range. -/
theorem exists_float (pointed : text.fraction.isSome = true ∨ text.exponent.isSome = true)
    (small : ∀ exponent ∈ text.exponent, digitsValue exponent.2 ≤ exponentLimit)
    (fits : digitsValue text.whole < 1 <<< 64)
    (le : text.magnitude * Binary64.slack ^ 2 ≤ Binary64.greatest) :
    ∃ x, ∀ start stop, text.value start stop = .ok (.float x) := by
  obtain ⟨digits_lt, counted⟩ := decimal_le fits
  have digits_le : (text.decimal.digits : ℚ) ≤ Binary64.greatest := by
    refine le_trans ?_ Binary64.ten_pow_le_greatest
    exact_mod_cast digits_lt.le.trans (by decide +kernel)
  have counted_le := (mul_le_mul_of_nonneg_right counted (sq_nonneg Binary64.slack)).trans le
  obtain ⟨x, estimated⟩ := Binary64.exists_estimate text.negative digits_le counted_le
  exact ⟨x, value_eq_float pointed small estimated⟩

/-- A text of few digits is read as the binary64 nearest to its number. -/
theorem value_eq_nearest (pointed : text.fraction.isSome = true ∨ text.exponent.isSome = true)
    (small : ∀ exponent ∈ text.exponent, digitsValue exponent.2 ≤ exponentLimit)
    (short : text.decimal.digits < 2 ^ 53)
    (near : (text.decimal.exponent + text.exponentValue).natAbs ≤ Binary64.exactTenPowers)
    {digits : Nat} {exponent : Int} {x : Binary64}
    (reads : Binary64.ofDecimal text.negative digits exponent = some x)
    (same : text.magnitude = digits * 10 ^ exponent) (start stop : Nat) :
    text.value start stop = .ok (.float x) := by
  refine value_eq_float pointed small ?_ start stop
  rw [Binary64.estimate_eq_ofDecimal text.negative short near, ← reads]
  exact Binary64.ofDecimal_congr text.negative ((decimal_of_short short).trans same)

end NumberText

end Admission.Json
