import Mathlib.Algebra.Order.Group.Abs
import Admission.Number.Estimate
import Admission.Proofs.Number.Rounding

/-! How far a binary64 is from the number it was rounded from, and that there is an estimate of every
decimal that is not too near the greatest binary64. Where the digits and the power of ten are exact the
estimate is rounded only once, and so it is the nearest binary64. -/

set_option autoImplicit false

namespace Admission.Binary64

def greatest : ℚ :=
  (2 ^ 53 - 1) * 2 ^ (971 : Int)

theorem magnitude_le_greatest (x : Binary64) : x.magnitude ≤ greatest := by
  obtain ⟨short, -, small, -⟩ := canonical_iff.1 x.canonical
  have significand_le : (x.significand : ℚ) ≤ 2 ^ 53 - 1 := by
    have le : x.significand + 1 ≤ 2 ^ 53 := short
    have cast : (x.significand : ℚ) + 1 ≤ 2 ^ 53 := by exact_mod_cast le
    linarith
  exact mul_le_mul significand_le (zpow_le_zpow_right₀ one_le_two small) (by positivity) (by norm_num)

theorem greatest_lt : greatest < 2 ^ (1024 : Int) := by
  rw [greatest, show (1024 : Int) = 53 + 971 from rfl, zpow_add₀ two_ne_zero]
  exact mul_lt_mul_of_pos_right (by norm_num) (by positivity)

theorem ratio_snd_pos (x : Binary64) : 0 < x.ratio.2 :=
  scale_snd_pos x.significand x.exponent two_pos one_pos

theorem ratio_quotient (x : Binary64) : (x.ratio.1 : ℚ) / x.ratio.2 = x.magnitude := by
  simpa [ratio, magnitude] using scale_quotient 2 x.exponent x.significand 1

theorem roundHalfEven_bounds (num : Nat) {den : Nat} (pos : 0 < den) :
    (num : ℚ) / den - 1 / 2 ≤ roundHalfEven num den ∧
      (roundHalfEven num den : ℚ) ≤ num / den + 1 / 2 := by
  have division : (den : ℚ) * (num / den : Nat) + (num % den : Nat) = num := by
    exact_mod_cast Nat.div_add_mod num den
  have den_pos : (0 : ℚ) < den := by exact_mod_cast pos
  have rest_nonneg : (0 : ℚ) ≤ (num % den : Nat) := Nat.cast_nonneg _
  have rest_lt : ((num % den : Nat) : ℚ) < den := by exact_mod_cast Nat.mod_lt num pos
  rw [sub_le_iff_le_add, div_le_iff₀ den_pos, ← sub_le_iff_le_add, le_div_iff₀ den_pos]
  unfold roundHalfEven
  simp only
  -- what is left of the division is at most a half where it is dropped, and at least one where not
  split
  · rename_i less
    have half : 2 * ((num % den : Nat) : ℚ) < den := by exact_mod_cast less
    constructor <;> nlinarith
  · split
    · rename_i more
      have half : (den : ℚ) < 2 * ((num % den : Nat) : ℚ) := by exact_mod_cast more
      push_cast
      constructor <;> nlinarith
    · have half : 2 * ((num % den : Nat) : ℚ) = den := by
        have eq : 2 * (num % den) = den := by omega
        exact_mod_cast eq
      have even : (num / den) % 2 = 0 ∨ (num / den) % 2 = 1 := by omega
      rcases even with even | odd
      · rw [even]
        push_cast
        constructor <;> nlinarith
      · rw [odd]
        push_cast
        constructor <;> nlinarith

/-- The significand of a positive number before it is rounded. -/
def unrounded (q : ℚ) : ℚ :=
  q * 2 ^ (-exponentOf q)

theorem unrounded_mul (q : ℚ) : unrounded q * 2 ^ exponentOf q = q := by
  rw [unrounded, mul_assoc, ← zpow_add₀ two_ne_zero, neg_add_cancel, zpow_zero, mul_one]

theorem unrounded_lt {q : ℚ} (pos : 0 < q) : unrounded q < 2 ^ 53 := by
  have log : Int.log 2 q < 53 + exponentOf q := by
    unfold exponentOf
    omega
  rw [unrounded, zpow_neg, ← div_eq_mul_inv, div_lt_iff₀ (by positivity), ← zpow_natCast,
    ← zpow_add₀ two_ne_zero]
  exact (lt_two_pow_iff pos _).2 log

/-- Only the numbers of the least exponent have a short significand. -/
theorem le_unrounded {q : ℚ} (pos : 0 < q) (normal : -1074 < exponentOf q) : 2 ^ 52 ≤ unrounded q := by
  have log : 52 + exponentOf q ≤ Int.log 2 q := by
    unfold exponentOf at normal ⊢
    omega
  rw [unrounded, zpow_neg, ← div_eq_mul_inv, le_div_iff₀ (by positivity), ← zpow_natCast,
    ← zpow_add₀ two_ne_zero]
  exact (two_pow_le_iff pos _).2 log

theorem pack_some {negative : Bool} {rounded : Nat} {exponent : Int} {x : Binary64}
    (packed : pack negative rounded exponent = some x) :
    x.negative = negative ∧ x.magnitude = rounded * 2 ^ exponent ∧ exponent ≤ x.exponent := by
  by_cases carry : rounded = 1 <<< 53
  · simp only [pack, if_pos carry, Option.dite_none_right_eq_some, Option.some.injEq] at packed
    obtain ⟨-, rfl⟩ := packed
    refine ⟨rfl, ?_, by simp⟩
    have two_pow : ((1 <<< 52 : Nat) : ℚ) * 2 = (1 <<< 53 : Nat) := by norm_num [Nat.shiftLeft_eq]
    simp only [magnitude, carry]
    rw [zpow_add_one₀ two_ne_zero, ← two_pow]
    ring
  · simp only [pack, if_neg carry, Option.dite_none_right_eq_some, Option.some.injEq] at packed
    obtain ⟨-, rfl⟩ := packed
    exact ⟨rfl, rfl, le_refl _⟩

theorem ofRatio_rounded {num den : Nat} (negative : Bool) (num_pos : 0 < num) (den_pos : 0 < den) :
    ∃ rounded : Nat, ofRatio negative num den = pack negative rounded (exponentOf ((num : ℚ) / den)) ∧
      unrounded ((num : ℚ) / den) - 1 / 2 ≤ rounded ∧
      (rounded : ℚ) ≤ unrounded ((num : ℚ) / den) + 1 / 2 := by
  refine ⟨_, ofRatio_eq negative num_pos den_pos, ?_⟩
  have bounds := roundHalfEven_bounds
    (scale 2 (-exponentOf ((num : ℚ) / den)) num den).1
    (scale_snd_pos num (-exponentOf ((num : ℚ) / den)) two_pos den_pos)
  rwa [scale_quotient, Nat.cast_ofNat, ← unrounded] at bounds

/-- A binary64 is off by at most half a unit of its last place. -/
theorem abs_sub_le_of_ofRatio {negative : Bool} {num den : Nat} {x : Binary64} (num_pos : 0 < num)
    (den_pos : 0 < den) (rounds : ofRatio negative num den = some x) :
    |x.magnitude - (num : ℚ) / den| ≤ 2 ^ exponentOf ((num : ℚ) / den) / 2 ∧
      exponentOf ((num : ℚ) / den) ≤ x.exponent := by
  obtain ⟨rounded, eq, below, above⟩ := ofRatio_rounded negative num_pos den_pos
  obtain ⟨-, magnitude_eq, exponent_le⟩ := pack_some (eq ▸ rounds)
  refine ⟨?_, exponent_le⟩
  generalize (num : ℚ) / den = q at *
  have unit_pos : (0 : ℚ) < 2 ^ exponentOf q := by positivity
  calc |x.magnitude - q| = |(rounded - unrounded q) * 2 ^ exponentOf q| := by
        rw [sub_mul, unrounded_mul, magnitude_eq]
    _ = |rounded - unrounded q| * 2 ^ exponentOf q := by rw [abs_mul, abs_of_pos unit_pos]
    _ ≤ 1 / 2 * 2 ^ exponentOf q := by
        refine mul_le_mul_of_nonneg_right (abs_le.2 ⟨?_, ?_⟩) unit_pos.le
        · linarith
        · linarith
    _ = 2 ^ exponentOf q / 2 := by ring

/-- The greatest factor that rounding a number that is not below one may come to. -/
def slack : ℚ :=
  1 + 2 ^ (-53 : Int)

theorem magnitude_le_slack {negative : Bool} {num den : Nat} {x : Binary64}
    (one_le : 1 ≤ (num : ℚ) / den) (rounds : ofRatio negative num den = some x) :
    1 ≤ x.magnitude ∧ x.magnitude ≤ (num : ℚ) / den * slack := by
  have den_pos : 0 < den := by
    rcases Nat.eq_zero_or_pos den with rfl | pos
    · norm_num at one_le
    · exact pos
  have num_pos : 0 < num := by
    rcases Nat.eq_zero_or_pos num with rfl | pos
    · norm_num at one_le
    · exact pos
  obtain ⟨rounded, eq, below, above⟩ := ofRatio_rounded negative num_pos den_pos
  obtain ⟨-, magnitude_eq, -⟩ := pack_some (eq ▸ rounds)
  generalize (num : ℚ) / den = q at *
  have pos : 0 < q := by linarith
  have log : 0 ≤ Int.log 2 q := (two_pow_le_iff pos 0).1 (by simpa using one_le)
  have exponent_eq : exponentOf q = Int.log 2 q - 52 := by
    unfold exponentOf
    omega
  -- from one on a significand is full, so that half a unit is at most one part in 2 ^ 53
  have full : 2 ^ 52 ≤ unrounded q := le_unrounded pos (by omega)
  have unit_pos : (0 : ℚ) < 2 ^ exponentOf q := by positivity
  have rounded_full : (2 : ℚ) ^ 52 ≤ rounded := by
    have lt : (2 ^ 52 : ℚ) < rounded + 1 := by linarith
    have lt' : 2 ^ 52 < rounded + 1 := by exact_mod_cast lt
    have le : 2 ^ 52 ≤ rounded := by omega
    exact_mod_cast le
  rw [magnitude_eq]
  constructor
  · calc (1 : ℚ) ≤ 2 ^ (52 + exponentOf q) := one_le_zpow₀ one_le_two (by omega)
      _ = 2 ^ 52 * 2 ^ exponentOf q := by rw [zpow_add₀ two_ne_zero]; rfl
      _ ≤ rounded * 2 ^ exponentOf q := mul_le_mul_of_nonneg_right rounded_full unit_pos.le
  · calc (rounded : ℚ) * 2 ^ exponentOf q
        ≤ unrounded q * slack * 2 ^ exponentOf q := by
          refine mul_le_mul_of_nonneg_right ?_ unit_pos.le
          norm_num [slack] at full ⊢
          linarith
      _ = q * slack := by rw [mul_right_comm, unrounded_mul]

theorem exists_pack {rounded : Nat} {exponent : Int} (negative : Bool) (le : rounded ≤ 2 ^ 53)
    (least : -1074 ≤ exponent) (full : 2 ^ 52 ≤ rounded ∨ exponent = -1074)
    (small : exponent ≤ 970 ∨ exponent = 971 ∧ rounded < 2 ^ 53) :
    ∃ x, pack negative rounded exponent = some x := by
  by_cases carry : rounded = 1 <<< 53
  · have canonical : Canonical (1 <<< 52) (exponent + 1) := by
      rw [canonical_iff]
      refine ⟨by decide, by omega, ?_, .inl (by decide)⟩
      simp only [Nat.shiftLeft_eq, one_mul] at carry
      omega
    simp only [pack, if_pos carry]
    exact ⟨_, dif_pos canonical⟩
  · have canonical : Canonical rounded exponent := by
      rw [canonical_iff]
      simp only [Nat.shiftLeft_eq, one_mul] at carry
      omega
    exact ⟨_, pack_of_canonical negative canonical⟩

theorem exists_ofRatio (negative : Bool) {num den : Nat} (den_pos : 0 < den)
    (le : (num : ℚ) / den ≤ greatest) : ∃ x, ofRatio negative num den = some x := by
  rcases Nat.eq_zero_or_pos num with rfl | num_pos
  · exact ⟨_, rfl⟩
  obtain ⟨rounded, eq, below, above⟩ := ofRatio_rounded negative num_pos den_pos
  rw [eq]
  have pos := quotient_pos num_pos den_pos
  generalize (num : ℚ) / den = q at *
  have log : Int.log 2 q < 1024 := (lt_two_pow_iff pos 1024).1 (le.trans_lt greatest_lt)
  have least : -1074 ≤ exponentOf q := le_max_right _ _
  have small : exponentOf q ≤ 971 := by
    unfold exponentOf
    omega
  have lt := unrounded_lt pos
  refine exists_pack negative ?_ least ?_ ?_
  · have lt' : (rounded : ℚ) < 2 ^ 53 + 1 := by linarith
    have lt'' : rounded < 2 ^ 53 + 1 := by exact_mod_cast lt'
    omega
  · rcases least.lt_or_eq with normal | eq
    · have full := le_unrounded pos normal
      have lt' : (2 ^ 52 : ℚ) < rounded + 1 := by linarith
      have lt'' : 2 ^ 52 < rounded + 1 := by exact_mod_cast lt'
      omega
    · exact .inr eq.symm
  · rcases small.lt_or_eq with smaller | top
    · exact .inl (by omega)
    · -- only at the greatest exponent may the significand not be carried
      have unrounded_le : unrounded q ≤ 2 ^ 53 - 1 := by
        rw [unrounded, top, zpow_neg, ← div_eq_mul_inv, div_le_iff₀ (by positivity)]
        exact le
      have lt' : (rounded : ℚ) < 2 ^ 53 := by linarith
      exact .inr ⟨top, by exact_mod_cast lt'⟩

/-! ## The estimate -/

theorem exists_times {x y : Binary64} (le : x.magnitude * y.magnitude ≤ greatest) :
    ∃ z, x.times y = some z := by
  refine exists_ofRatio _ (Nat.mul_pos x.ratio_snd_pos y.ratio_snd_pos) ?_
  push_cast
  rwa [mul_div_mul_comm, ratio_quotient, ratio_quotient]

theorem ratio_fst_pos {x : Binary64} (nonzero : 0 < x.magnitude) : 0 < x.ratio.1 := by
  rw [← ratio_quotient] at nonzero
  rcases Nat.eq_zero_or_pos x.ratio.1 with zero | pos
  · simp [zero] at nonzero
  · exact pos

theorem isZero_of_pos {x : Binary64} (pos : 0 < x.magnitude) : x.isZero = false := by
  rw [Binary64.isZero, beq_eq_false_iff_ne]
  intro zero
  simp [magnitude, zero] at pos

theorem magnitude_nonneg (x : Binary64) : 0 ≤ x.magnitude := by
  unfold magnitude
  positivity

theorem exists_dividedBy (x : Binary64) {y : Binary64} (one_le : 1 ≤ y.magnitude) :
    ∃ z, x.dividedBy y = some z := by
  have pos : 0 < y.magnitude := by linarith
  rw [dividedBy, isZero_of_pos pos]
  refine exists_ofRatio _ (Nat.mul_pos x.ratio_snd_pos (ratio_fst_pos pos)) ?_
  push_cast
  calc (x.ratio.1 * y.ratio.2 : ℚ) / (x.ratio.2 * y.ratio.1)
      = x.magnitude / y.magnitude := by
        rw [← ratio_quotient, ← ratio_quotient, div_div_div_eq]
    _ ≤ x.magnitude := div_le_self x.magnitude_nonneg one_le
    _ ≤ greatest := x.magnitude_le_greatest

theorem ten_pow_le_greatest : (10 : ℚ) ^ tenPowerLimit ≤ greatest := by
  have powers : 10 ^ tenPowerLimit + 2 ^ 971 ≤ 2 ^ 53 * 2 ^ 971 := by decide +kernel
  have cast : (10 : ℚ) ^ tenPowerLimit + 2 ^ 971 ≤ 2 ^ 53 * 2 ^ 971 := by exact_mod_cast powers
  have greatest_eq : greatest = 2 ^ 53 * 2 ^ 971 - 2 ^ 971 := by
    rw [greatest, sub_mul, one_mul]
    rfl
  rwa [greatest_eq, le_sub_iff_add_le]

theorem exists_tenPower {power : Nat} (le : power ≤ tenPowerLimit) :
    ∃ y, tenPower power = some y ∧ 1 ≤ y.magnitude ∧ y.magnitude ≤ 10 ^ power * slack := by
  have quotient := scale_ten_quotient 1 power
  rw [Nat.cast_one, one_mul, zpow_natCast] at quotient
  have den_pos : 0 < (scale 10 power 1 1).2 := scale_snd_pos 1 power (by decide) one_pos
  have in_range : (10 : ℚ) ^ power ≤ greatest :=
    (pow_le_pow_right₀ (by norm_num) le).trans ten_pow_le_greatest
  obtain ⟨y, rounds⟩ := exists_ofRatio false den_pos (quotient.trans_le in_range)
  have bounds := magnitude_le_slack (quotient ▸ one_le_pow₀ (by norm_num)) rounds
  rw [quotient] at bounds
  exact ⟨y, (ofDecimal_eq false power one_pos).trans rounds, bounds⟩

theorem exists_overTenPower {power : Nat} (le : power ≤ tenPowerLimit) (rounds : Nat) (x : Binary64) :
    ∃ z, x.overTenPower rounds power = some z := by
  induction rounds generalizing x with
  | zero =>
    obtain ⟨y, eq, one_le, -⟩ := exists_tenPower le
    obtain ⟨z, divides⟩ := exists_dividedBy x one_le
    exact ⟨z, by rw [overTenPower, eq, Option.bind_some, divides]⟩
  | succ rounds ih =>
    rw [overTenPower]
    split
    · exact ⟨x, rfl⟩
    · obtain ⟨y, eq, one_le, -⟩ := exists_tenPower (le_refl tenPowerLimit)
      obtain ⟨quotient, divides⟩ := exists_dividedBy x one_le
      obtain ⟨z, rest⟩ := ih quotient
      exact ⟨z, by rw [eq, Option.bind_some, divides]; exact rest⟩

theorem exists_timesTenPower {digits power : Nat} {x : Binary64}
    (rounds : ofRatio false digits 1 = some x)
    (le : digits * (10 : ℚ) ^ power * slack ^ 2 ≤ greatest) :
    ∃ z, x.timesTenPower power = some z := by
  rcases Nat.eq_zero_or_pos digits with rfl | digits_pos
  · obtain rfl : zero false = x := Option.some.inj rounds
    unfold timesTenPower
    split
    · rename_i power_le
      obtain ⟨y, eq, -, -⟩ := exists_tenPower power_le
      have zero_magnitude : (zero false).magnitude = 0 := by simp [zero, magnitude]
      rw [eq, Option.bind_some]
      exact exists_times (by rw [zero_magnitude, zero_mul, greatest]; norm_num)
    · exact ⟨_, rfl⟩
  · have digits_ge : (1 : ℚ) ≤ digits := by exact_mod_cast digits_pos
    have slack_ge : 1 ≤ slack := by norm_num [slack]
    have ten_pow_pos : (0 : ℚ) < 10 ^ power := by positivity
    have power_le : power ≤ tenPowerLimit := by
      -- a greater power of ten is out of range by itself
      by_contra large
      have beyond : greatest < 10 ^ (tenPowerLimit + 1) := by
        refine greatest_lt.trans_le ?_
        have powers : 2 ^ 1024 ≤ 10 ^ (tenPowerLimit + 1) := by decide +kernel
        exact_mod_cast powers
      have ten_pow_le : (10 : ℚ) ^ (tenPowerLimit + 1) ≤ 10 ^ power :=
        pow_le_pow_right₀ (by norm_num) (by omega)
      have product : (10 : ℚ) ^ power ≤ digits * 10 ^ power * slack ^ 2 := by
        calc (10 : ℚ) ^ power ≤ digits * 10 ^ power := le_mul_of_one_le_left ten_pow_pos.le digits_ge
          _ ≤ digits * 10 ^ power * slack ^ 2 :=
            le_mul_of_one_le_right (by positivity) (one_le_pow₀ slack_ge)
      linarith
    obtain ⟨y, eq, one_le, y_le⟩ := exists_tenPower power_le
    have bounds := magnitude_le_slack (by simpa using digits_ge) rounds
    rw [Nat.cast_one, div_one] at bounds
    rw [timesTenPower, if_pos power_le, eq, Option.bind_some]
    refine exists_times ?_
    calc x.magnitude * y.magnitude
        ≤ (digits * slack) * (10 ^ power * slack) :=
          mul_le_mul bounds.2 y_le (by linarith) (by positivity)
      _ = digits * 10 ^ power * slack ^ 2 := by ring
      _ ≤ greatest := le

/-- There is an estimate of what two roundings keep in range. -/
theorem exists_estimate (negative : Bool) {digits : Nat} {exponent : Int}
    (digits_le : (digits : ℚ) ≤ greatest)
    (le : digits * (10 : ℚ) ^ exponent * slack ^ 2 ≤ greatest) :
    ∃ x, estimate negative digits exponent = some x := by
  obtain ⟨x, rounds⟩ := exists_ofRatio false one_pos (by simpa using digits_le)
  rw [estimate, rounds]
  cases exponent with
  | ofNat power =>
    rw [Int.ofNat_eq_natCast, zpow_natCast] at le
    obtain ⟨z, product⟩ := exists_timesTenPower rounds le
    exact ⟨{ z with negative }, by simp [product]⟩
  | negSucc less =>
    have power_le : less % tenPowerLimit + 1 ≤ tenPowerLimit := Nat.mod_lt less (by decide)
    obtain ⟨z, quotient⟩ := exists_overTenPower power_le (less / tenPowerLimit) x
    exact ⟨{ z with negative }, by simp [quotient]⟩

/-- A decimal that reads as a binary64 other than one of the three greatest stays in range. -/
theorem slack_le_greatest {negative : Bool} {digits : Nat} {exponent : Int} {x : Binary64}
    (reads : ofDecimal negative digits exponent = some x)
    (below : x.exponent < 971 ∨ x.significand + 4 ≤ 2 ^ 53) :
    digits * (10 : ℚ) ^ exponent * slack ^ 2 ≤ greatest := by
  rcases Nat.eq_zero_or_pos digits with rfl | pos
  · norm_num [greatest]
  rw [ofDecimal_eq negative exponent pos] at reads
  have near := abs_sub_le_of_ofRatio (scale_fst_pos 1 exponent (by decide) pos)
    (scale_snd_pos digits exponent (by decide) one_pos) reads
  rw [scale_ten_quotient] at near
  generalize (digits : ℚ) * 10 ^ exponent = q at *
  have unit_le : (2 : ℚ) ^ exponentOf q ≤ 2 ^ x.exponent := zpow_le_zpow_right₀ one_le_two near.2
  have q_le : q ≤ (x.significand + 1 / 2) * 2 ^ x.exponent := by
    have error := (abs_le.1 near.1).1
    rw [magnitude] at error
    linarith
  obtain ⟨short, -, small, -⟩ := canonical_iff.1 x.canonical
  have bound : q ≤ (2 ^ 53 - 3) * 2 ^ (971 : Int) := by
    refine q_le.trans ?_
    rcases below with lower | shorter
    · -- a full significand is half as much one exponent below the greatest
      have significand_le : (x.significand : ℚ) ≤ 2 ^ 53 := by exact_mod_cast short.le
      have unit : (2 : ℚ) ^ x.exponent ≤ 2 ^ (970 : Int) := zpow_le_zpow_right₀ one_le_two (by omega)
      calc ((x.significand : ℚ) + 1 / 2) * 2 ^ x.exponent ≤ (2 ^ 53 + 1 / 2) * 2 ^ (970 : Int) :=
            mul_le_mul (by linarith) unit (by positivity) (by norm_num)
        _ = (2 ^ 53 + 1 / 2) / 2 * 2 ^ (971 : Int) := by
            rw [show (971 : Int) = 970 + 1 from rfl, zpow_add_one₀ two_ne_zero]
            ring
        _ ≤ (2 ^ 53 - 3) * 2 ^ (971 : Int) :=
            mul_le_mul_of_nonneg_right (by norm_num) (by positivity)
    · have cast : (x.significand : ℚ) + 4 ≤ 2 ^ 53 := by exact_mod_cast shorter
      have unit : (2 : ℚ) ^ x.exponent ≤ 2 ^ (971 : Int) := zpow_le_zpow_right₀ one_le_two small
      exact mul_le_mul (by linarith) unit (by positivity) (by norm_num)
  rw [greatest]
  calc q * slack ^ 2 ≤ (2 ^ 53 - 3) * 2 ^ (971 : Int) * slack ^ 2 :=
        mul_le_mul_of_nonneg_right bound (by norm_num [slack])
    _ = (2 ^ 53 - 3) * slack ^ 2 * 2 ^ (971 : Int) := by ring
    _ ≤ (2 ^ 53 - 1) * 2 ^ (971 : Int) :=
        mul_le_mul_of_nonneg_right (by norm_num [slack]) (by positivity)

theorem ofRatio_withSign (sign negative : Bool) (num den : Nat) :
    (ofRatio sign num den).bind (fun x => pure { x with negative }) = ofRatio negative num den := by
  unfold ofRatio
  split
  · rfl
  · simp only
    split <;> (split <;> rfl)

theorem exists_exact {n : Nat} (short : n < 2 ^ 53) :
    ∃ x, ofRatio false n 1 = some x ∧ x.magnitude = n := by
  rcases Nat.eq_zero_or_pos n with rfl | pos
  · exact ⟨_, rfl, by simp [zero, magnitude]⟩
  obtain ⟨rounded, eq, below, above⟩ := ofRatio_rounded false pos one_pos
  rw [Nat.cast_one, div_one] at eq below above
  have n_pos : (0 : ℚ) < n := by exact_mod_cast pos
  have n_le : (n : ℚ) ≤ greatest := by
    refine le_trans ?_ (ten_pow_le_greatest.trans' (?_ : (2 : ℚ) ^ 53 ≤ _))
    · exact_mod_cast short.le
    · exact_mod_cast (by decide +kernel : 2 ^ 53 ≤ 10 ^ tenPowerLimit)
  obtain ⟨x, rounds⟩ := exists_ofRatio false one_pos (by simpa using n_le)
  refine ⟨x, rounds, ?_⟩
  obtain ⟨-, magnitude_eq, -⟩ := pack_some (eq ▸ rounds)
  -- a short number has a natural significand already, and no other natural is within a half of it
  obtain ⟨k, k_eq⟩ : ∃ k : Nat, exponentOf n = -k := by
    have log : Int.log 2 (n : ℚ) < 53 :=
      (lt_two_pow_iff n_pos 53).1 (by exact_mod_cast short)
    refine ⟨(-exponentOf n).toNat, ?_⟩
    unfold exponentOf
    omega
  have unrounded_eq : unrounded n = (n * 2 ^ k : Nat) := by
    rw [unrounded, k_eq, neg_neg, zpow_natCast]
    push_cast
    rfl
  have rounded_eq : rounded = n * 2 ^ k := by
    rw [unrounded_eq] at below above
    have lt : (n * 2 ^ k : Nat) < rounded + 1 := by
      exact_mod_cast (by linarith : ((n * 2 ^ k : Nat) : ℚ) < rounded + 1)
    have gt : rounded < (n * 2 ^ k : Nat) + 1 := by
      exact_mod_cast (by linarith : (rounded : ℚ) < (n * 2 ^ k : Nat) + 1)
    omega
  rw [magnitude_eq, rounded_eq, ← unrounded_eq, unrounded_mul]

/-- The powers of ten that are binary64 numbers themselves. -/
def exactTenPowers : Nat := 22

theorem exists_exact_tenPower {power : Nat} (le : power ≤ exactTenPowers) :
    ∃ y, tenPower power = some y ∧ y.magnitude = 10 ^ power := by
  have exact : ∀ power ≤ exactTenPowers, ∃ y ∈ tenPower power, y.ratio.1 = 10 ^ power * y.ratio.2 := by
    decide +kernel
  obtain ⟨y, eq, ratio_eq⟩ := exact power le
  have den_pos : (0 : ℚ) < y.ratio.2 := by exact_mod_cast y.ratio_snd_pos
  refine ⟨y, eq, ?_⟩
  rw [← ratio_quotient, ratio_eq]
  push_cast
  rw [mul_div_assoc, div_self den_pos.ne', mul_one]

theorem ofRatio_eq_ofDecimal (negative : Bool) {num den digits : Nat} {exponent : Int}
    (den_pos : 0 < den) (eq : (num : ℚ) / den = digits * 10 ^ exponent) :
    ofRatio negative num den = ofDecimal negative digits exponent := by
  have den_pos' : (0 : ℚ) < den := by exact_mod_cast den_pos
  have ten_pos := ten_pow_pos exponent
  rcases Nat.eq_zero_or_pos digits with rfl | digits_pos
  · obtain rfl : num = 0 := by simpa [den_pos'.ne'] using eq
    rfl
  · have num_pos : 0 < num := by
      have pos : (0 : ℚ) < num / den := eq ▸ by positivity
      exact_mod_cast (div_pos_iff_of_pos_right den_pos').1 pos
    rw [ofDecimal_eq negative exponent digits_pos]
    refine ofRatio_congr negative num_pos den_pos (scale_fst_pos 1 exponent (by decide) digits_pos)
      (scale_snd_pos digits exponent (by decide) one_pos) ?_
    rw [eq, scale_ten_quotient]

/-- The estimate of few digits times a small power of ten is the nearest binary64. -/
theorem estimate_eq_ofDecimal (negative : Bool) {digits : Nat} {exponent : Int}
    (short : digits < 2 ^ 53) (near : exponent.natAbs ≤ exactTenPowers) :
    estimate negative digits exponent = ofDecimal negative digits exponent := by
  -- the digits and the power of ten are exact, so that only their product or quotient is rounded
  obtain ⟨x, rounds, x_eq⟩ := exists_exact short
  rw [estimate, rounds, Option.bind_eq_bind, Option.bind_some]
  cases exponent with
  | ofNat power =>
    have power_le : power ≤ exactTenPowers := near
    obtain ⟨y, eq, y_eq⟩ := exists_exact_tenPower power_le
    have product : x.timesTenPower power = x.times y := by
      rw [timesTenPower, if_pos (power_le.trans (by decide)), eq, Option.bind_some]
    simp only [product]
    refine (ofRatio_withSign ..).trans (ofRatio_eq_ofDecimal negative
      (Nat.mul_pos x.ratio_snd_pos y.ratio_snd_pos) ?_)
    push_cast
    rw [mul_div_mul_comm, ratio_quotient, ratio_quotient, x_eq, y_eq, Int.ofNat_eq_natCast,
      zpow_natCast]
  | negSucc less =>
    have less_lt : less + 1 ≤ exactTenPowers := near
    obtain ⟨y, eq, y_eq⟩ := exists_exact_tenPower less_lt
    have y_pos : 0 < y.magnitude := y_eq ▸ by positivity
    have limit : exactTenPowers < tenPowerLimit := by decide
    have quotient : x.overTenPower (less / tenPowerLimit) (less % tenPowerLimit + 1) =
        x.dividedBy y := by
      rw [Nat.div_eq_of_lt (by omega), Nat.mod_eq_of_lt (by omega), overTenPower, eq,
        Option.bind_some]
    simp only [quotient, dividedBy, isZero_of_pos y_pos, Bool.false_eq_true, if_false]
    refine (ofRatio_withSign ..).trans (ofRatio_eq_ofDecimal negative
      (Nat.mul_pos x.ratio_snd_pos (ratio_fst_pos y_pos)) ?_)
    push_cast
    rw [← div_div_div_eq, ratio_quotient, ratio_quotient, x_eq, y_eq, zpow_negSucc, div_eq_mul_inv]

end Admission.Binary64
