import Admission.Number.Notation
import Admission.Proofs.Number.Rounding

/-! A binary64 is the one nearest to its shortest digits, and to every decimal of the same
magnitude. -/

set_option autoImplicit false

namespace Admission.Binary64

theorem eq_zero_of_isZero {x : Binary64} (isZero : x.isZero = true) : x = zero x.negative := by
  obtain ⟨negative, significand, exponent, canonical⟩ := x
  obtain rfl : significand = 0 := by simpa [Binary64.isZero] using isZero
  obtain ⟨-, -, -, full | rfl⟩ := canonical_iff.1 canonical
  · omega
  · rfl

theorem significand_pos_of_not_isZero {x : Binary64} (nonzero : x.isZero = false) :
    0 < x.significand := by
  simpa [Binary64.isZero, Nat.pos_iff_ne_zero] using nonzero

theorem exactDecimal_magnitude (x : Binary64) :
    (x.exactDecimal.digits : ℚ) * 10 ^ x.exactDecimal.exponent = x.magnitude := by
  unfold exactDecimal magnitude
  split
  · rename_i nonneg
    have eq := scale_quotient 2 x.exponent x.significand 1
    simpa [ratio, scale, nonneg] using eq
  · rename_i negative
    obtain ⟨n, eq⟩ : ∃ n : Nat, x.exponent = -n := ⟨(-x.exponent).toNat, by omega⟩
    -- halves are tenths of fives: a power of five makes up for every power of ten
    rw [eq, neg_neg, Int.toNat_natCast, Nat.pow_eq, zpow_neg, zpow_neg, zpow_natCast, zpow_natCast,
      show (10 : ℚ) = 5 * 2 by norm_num, mul_pow]
    push_cast
    field_simp

theorem ofDecimal_magnitude {x : Binary64} (nonzero : 0 < x.significand) {digits : Nat}
    {exponent : Int} (eq : (digits : ℚ) * 10 ^ exponent = x.magnitude) :
    ofDecimal x.negative digits exponent = some x := by
  have pos : 0 < digits := by
    have positive := magnitude_pos nonzero
    rw [← eq] at positive
    exact_mod_cast pos_of_mul_pos_left positive (ten_pow_pos exponent).le
  rw [ofDecimal_eq x.negative exponent pos]
  refine ofRatio_magnitude nonzero (scale_fst_pos _ _ (by decide) pos)
    (scale_snd_pos _ _ (by decide) one_pos) ?_
  rw [scale_ten_quotient, eq]

theorem ofDecimal_shortest (x : Binary64) :
    ofDecimal x.negative x.shortest.digits x.shortest.exponent = some x := by
  cases isZero : x.isZero with
  | true =>
    simp only [shortest, isZero, if_true]
    conv_rhs => rw [eq_zero_of_isZero isZero]
    rfl
  | false =>
    simp only [shortest, isZero]
    generalize found : List.find? (readsBack x) _ = candidate
    -- a candidate was tried before it is taken; if none is left the exact digits are
    cases candidate with
    | some decimal => simpa [readsBack] using List.find?_some found
    | none =>
      exact ofDecimal_magnitude (significand_pos_of_not_isZero isZero) (exactDecimal_magnitude x)

theorem range_of_ofDecimal {negative : Bool} {digits : Nat} {exponent : Int} {x : Binary64}
    (reads : ofDecimal negative digits exponent = some x) (nonzero : 0 < x.significand) :
    0 < digits ∧ (2 : ℚ) ^ (-1080 : Int) ≤ digits * 10 ^ exponent ∧
      (digits : ℚ) * 10 ^ exponent < 2 ^ (1024 : Int) := by
  have pos : 0 < digits := by
    rcases Nat.eq_zero_or_pos digits with rfl | pos
    · simp [ofDecimal] at reads
      simp [← reads, zero] at nonzero
    · exact pos
  have base_pos : 0 < 10 := by decide
  have fst_pos := scale_fst_pos 1 exponent base_pos pos
  have snd_pos := scale_snd_pos digits exponent base_pos one_pos
  rw [ofDecimal_eq negative exponent pos] at reads
  rw [← scale_ten_quotient digits exponent]
  refine ⟨pos, ?_, ?_⟩
  · by_contra small
    rw [ofRatio_eq_zero negative fst_pos snd_pos (not_le.1 small)] at reads
    simp [← Option.some.inj reads, zero] at nonzero
  · by_contra large
    rw [ofRatio_eq_none negative fst_pos snd_pos (not_lt.1 large)] at reads
    cases reads

theorem ten_pow_le_of_toDigits {n : Nat} (pos : 0 < n) :
    10 ^ ((Nat.toDigits 10 n).length - 1) ≤ n := by
  rcases Nat.eq_zero_or_pos ((Nat.toDigits 10 n).length - 1) with zero | positive
  · rw [zero]
    exact pos
  · refine Nat.le_of_not_lt fun lt => ?_
    have := (Nat.length_toDigits_le_iff (by decide) positive).2 lt
    omega

theorem lt_ten_pow_toDigits (n : Nat) : n < 10 ^ (Nat.toDigits 10 n).length :=
  (Nat.length_toDigits_le_iff (by decide) Nat.length_toDigits_pos).1 (Nat.le_refl _)

theorem ten_pow_le_two_pow_neg : (10 : ℚ) ^ (-329 : Int) ≤ 2 ^ (-1080 : Int) := by
  have powers : 2 ^ 1080 ≤ 10 ^ 329 := by decide +kernel
  rw [zpow_neg, zpow_neg]
  exact inv_anti₀ (by positivity) (by exact_mod_cast powers)

theorem leading_exponent_bounds {negative : Bool} {digits : Nat} {exponent : Int} {x : Binary64}
    (reads : ofDecimal negative digits exponent = some x) (nonzero : 0 < x.significand) :
    -330 < exponent + (Nat.toDigits 10 digits).length - 1 ∧
      exponent + (Nat.toDigits 10 digits).length - 1 < 310 := by
  obtain ⟨pos, least, greatest⟩ := range_of_ofDecimal reads nonzero
  -- as many digits as there are bound the number by powers of ten on both sides
  obtain ⟨more, length⟩ : ∃ more, (Nat.toDigits 10 digits).length = more + 1 :=
    Nat.exists_eq_succ_of_ne_zero Nat.length_toDigits_pos.ne'
  have digits_ge := ten_pow_le_of_toDigits pos
  have digits_lt := lt_ten_pow_toDigits digits
  rw [length] at digits_ge digits_lt
  rw [length]
  have above : (10 : ℚ) ^ (exponent + more) < 10 ^ (310 : Int) :=
    calc (10 : ℚ) ^ (exponent + more) = 10 ^ more * 10 ^ exponent := by
          rw [zpow_add₀ (by norm_num), zpow_natCast, mul_comm]
      _ ≤ digits * 10 ^ exponent :=
          mul_le_mul_of_nonneg_right (by exact_mod_cast digits_ge) (ten_pow_pos exponent).le
      _ < 2 ^ (1024 : Int) := greatest
      _ ≤ 10 ^ (310 : Int) := two_pow_le_ten_pow
  have below : (10 : ℚ) ^ (-329 : Int) < 10 ^ (exponent + more + 1) :=
    calc (10 : ℚ) ^ (-329 : Int) ≤ 2 ^ (-1080 : Int) := ten_pow_le_two_pow_neg
      _ ≤ digits * 10 ^ exponent := least
      _ < 10 ^ (more + 1) * 10 ^ exponent :=
          mul_lt_mul_of_pos_right (by exact_mod_cast digits_lt) (ten_pow_pos exponent)
      _ = 10 ^ (exponent + more + 1) := by
          rw [add_assoc, zpow_add₀ (by norm_num) exponent, mul_comm]; rfl
  rw [zpow_lt_zpow_iff_right₀ (by norm_num)] at above below
  push_cast
  omega

end Admission.Binary64
