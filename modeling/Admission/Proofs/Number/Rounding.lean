import Mathlib.Algebra.Order.Field.Power
import Mathlib.Data.Int.Log
import Mathlib.Data.Rat.Floor
import Mathlib.Tactic.FieldSimp
import Mathlib.Tactic.Linarith
import Mathlib.Tactic.Positivity
import Mathlib.Tactic.Ring
import Admission.Number.Binary64

/-! The binary64 nearest to a quotient depends on the number meant alone, not on how it is written
as a quotient or as a decimal, and a binary64 is the one nearest to itself. -/

set_option autoImplicit false

namespace Admission.Binary64

theorem scale_fst_pos {base num : Nat} (den : Nat) (exponent : Int) (base_pos : 0 < base)
    (num_pos : 0 < num) : 0 < (scale base exponent num den).1 := by
  unfold scale
  split
  · exact Nat.mul_pos num_pos (Nat.pow_pos base_pos)
  · exact num_pos

theorem scale_snd_pos {base den : Nat} (num : Nat) (exponent : Int) (base_pos : 0 < base)
    (den_pos : 0 < den) : 0 < (scale base exponent num den).2 := by
  unfold scale
  split
  · exact den_pos
  · exact Nat.mul_pos den_pos (Nat.pow_pos base_pos)

theorem scale_quotient (base : Nat) (exponent : Int) (num den : Nat) :
    ((scale base exponent num den).1 : ℚ) / (scale base exponent num den).2 =
      (num : ℚ) / den * (base : ℚ) ^ exponent := by
  unfold scale
  split
  · rename_i nonneg
    lift exponent to ℕ using nonneg
    rw [Int.toNat_natCast, zpow_natCast, div_mul_eq_mul_div, Nat.pow_eq]
    push_cast
    rfl
  · rename_i negative
    obtain ⟨n, rfl⟩ : ∃ n : Nat, exponent = -n := ⟨(-exponent).toNat, by omega⟩
    rw [neg_neg, Int.toNat_natCast, zpow_neg, zpow_natCast, ← div_eq_mul_inv, div_div, Nat.pow_eq]
    push_cast
    rfl

theorem quotient_pos {num den : Nat} (num_pos : 0 < num) (den_pos : 0 < den) :
    (0 : ℚ) < (num : ℚ) / den := by
  positivity

theorem two_pow_log2_le {n : Nat} (pos : 0 < n) : (2 : ℚ) ^ (n.log2 : Int) ≤ n := by
  rw [zpow_natCast]
  exact_mod_cast Nat.log2_self_le pos.ne'

theorem lt_two_pow_log2 (n : Nat) : (n : ℚ) < 2 ^ ((n.log2 : Int) + 1) := by
  exact_mod_cast Nat.lt_log2_self (n := n)

theorem two_pow_le_iff {x : ℚ} (pos : 0 < x) (k : Int) : (2 : ℚ) ^ k ≤ x ↔ k ≤ Int.log 2 x := by
  simpa using Int.zpow_le_iff_le_log (b := 2) (x := k) one_lt_two pos

theorem lt_two_pow_iff {x : ℚ} (pos : 0 < x) (k : Int) : x < 2 ^ k ↔ Int.log 2 x < k := by
  simpa using Int.lt_zpow_iff_log_lt (b := 2) (x := k) one_lt_two pos

/-- The logarithm of a quotient from those of its parts, up to one. -/
theorem log_quotient_bounds {num den : Nat} (num_pos : 0 < num) (den_pos : 0 < den) {k : Int}
    (k_eq : (num.log2 : Int) - den.log2 = k) :
    k - 1 ≤ Int.log 2 ((num : ℚ) / den) ∧ Int.log 2 ((num : ℚ) / den) < k + 1 := by
  have pos := quotient_pos num_pos den_pos
  have den_pos' : (0 : ℚ) < den := by positivity
  rw [← two_pow_le_iff pos, ← lt_two_pow_iff pos, le_div_iff₀ den_pos', div_lt_iff₀ den_pos']
  -- each part of the quotient lies between two neighbouring powers of two
  constructor
  · calc (2 : ℚ) ^ (k - 1) * den
        ≤ 2 ^ (k - 1) * 2 ^ ((den.log2 : Int) + 1) :=
          mul_le_mul_of_nonneg_left (lt_two_pow_log2 den).le (by positivity)
      _ = 2 ^ (num.log2 : Int) := by rw [← zpow_add₀ two_ne_zero]; congr 1; omega
      _ ≤ num := two_pow_log2_le num_pos
  · calc (num : ℚ) < 2 ^ ((num.log2 : Int) + 1) := lt_two_pow_log2 num
      _ = 2 ^ (k + 1) * 2 ^ (den.log2 : Int) := by
          rw [← zpow_add₀ two_ne_zero]; congr 1; omega
      _ ≤ 2 ^ (k + 1) * den := mul_le_mul_of_nonneg_left (two_pow_log2_le den_pos) (by positivity)

theorem floorLog2_eq {num den : Nat} (num_pos : 0 < num) (den_pos : 0 < den) :
    floorLog2 num den = Int.log 2 ((num : ℚ) / den) := by
  have pos := quotient_pos num_pos den_pos
  obtain ⟨k, k_eq⟩ : ∃ k : Int, (num.log2 : Int) - den.log2 = k := ⟨_, rfl⟩
  obtain ⟨least, greatest⟩ := log_quotient_bounds num_pos den_pos k_eq
  -- the logarithms of the parts may give one too much, which the scaled quotient tells
  have test : (scale 2 (-k) num den).2 ≤ (scale 2 (-k) num den).1 ↔
      k ≤ Int.log 2 ((num : ℚ) / den) := by
    have snd_pos : (0 : ℚ) < (scale 2 (-k) num den).2 := by
      exact_mod_cast scale_snd_pos num (-k) two_pos den_pos
    have power_pos : (0 : ℚ) < ((2 : ℕ) : ℚ) ^ k := by positivity
    rw [← two_pow_le_iff pos, ← Nat.cast_le (α := ℚ), ← one_le_div₀ snd_pos, scale_quotient,
      zpow_neg, ← div_eq_mul_inv, one_le_div₀ power_pos]
    simp
  unfold floorLog2
  simp only [k_eq, test]
  split <;> omega

theorem roundHalfEven_mul {factor : Nat} (pos : 0 < factor) (num den : Nat) :
    roundHalfEven (factor * num) (factor * den) = roundHalfEven num den := by
  unfold roundHalfEven
  simp only [Nat.mul_div_mul_left _ _ pos, Nat.mul_mod_mul_left, Nat.mul_left_comm 2 factor,
    Nat.mul_lt_mul_left pos]

theorem roundHalfEven_congr {num den num' den' : Nat} (den_pos : 0 < den) (den_pos' : 0 < den')
    (eq : (num : ℚ) / den = (num' : ℚ) / den') :
    roundHalfEven num den = roundHalfEven num' den' := by
  have cross : num * den' = num' * den := by
    rw [div_eq_div_iff (by positivity) (by positivity)] at eq
    exact_mod_cast eq
  calc roundHalfEven num den = roundHalfEven (den' * num) (den' * den) :=
        (roundHalfEven_mul den_pos' num den).symm
    _ = roundHalfEven (den * num') (den * den') := by
        rw [Nat.mul_comm den' num, cross, Nat.mul_comm num' den, Nat.mul_comm den' den]
    _ = roundHalfEven num' den' := roundHalfEven_mul den_pos num' den'

theorem roundHalfEven_one (n : Nat) : roundHalfEven n 1 = n := by
  simp [roundHalfEven, Nat.mod_one]

theorem roundHalfEven_eq_zero {num den : Nat} (lt : 2 * num < den) : roundHalfEven num den = 0 := by
  have less : num < den := by omega
  simp [roundHalfEven, Nat.div_eq_of_lt less, Nat.mod_eq_of_lt less, lt]

/-- The binary64 of a rounded significand, which may have become too long by one bit. -/
def pack (negative : Bool) (rounded : Nat) (exponent : Int) : Option Binary64 :=
  let (significand, exponent) :=
    if rounded = 1 <<< 53 then (1 <<< 52, exponent + 1) else (rounded, exponent)
  if h : Canonical significand exponent then some ⟨negative, significand, exponent, h⟩ else none

def exponentOf (x : ℚ) : Int :=
  max (Int.log 2 x - 52) (-1074)

theorem ofRatio_eq {num den : Nat} (negative : Bool) (num_pos : 0 < num) (den_pos : 0 < den) :
    ofRatio negative num den =
      let exponent := exponentOf ((num : ℚ) / den)
      let scaled := scale 2 (-exponent) num den
      pack negative (roundHalfEven scaled.1 scaled.2) exponent := by
  unfold ofRatio
  rw [if_neg num_pos.ne', floorLog2_eq num_pos den_pos]
  rfl

/-- Only the number that is meant counts. -/
theorem ofRatio_congr {num den num' den' : Nat} (negative : Bool) (num_pos : 0 < num)
    (den_pos : 0 < den) (num_pos' : 0 < num') (den_pos' : 0 < den')
    (eq : (num : ℚ) / den = (num' : ℚ) / den') :
    ofRatio negative num den = ofRatio negative num' den' := by
  rw [ofRatio_eq negative num_pos den_pos, ofRatio_eq negative num_pos' den_pos', eq]
  simp only
  rw [roundHalfEven_congr (scale_snd_pos _ _ two_pos den_pos) (scale_snd_pos _ _ two_pos den_pos')]
  rw [scale_quotient, scale_quotient, eq]

theorem canonical_iff {significand : Nat} {exponent : Int} :
    Canonical significand exponent ↔ significand < 2 ^ 53 ∧ -1074 ≤ exponent ∧ exponent ≤ 971 ∧
      (2 ^ 52 ≤ significand ∨ exponent = -1074) := by
  simp [Canonical, Nat.shiftLeft_eq]

theorem pack_of_canonical (negative : Bool) {significand : Nat} {exponent : Int}
    (canonical : Canonical significand exponent) :
    pack negative significand exponent = some ⟨negative, significand, exponent, canonical⟩ := by
  simp only [pack, if_neg canonical.1.ne]
  rw [dif_pos canonical]

theorem pack_eq_none (negative : Bool) (rounded : Nat) {exponent : Int} (large : 971 < exponent) :
    pack negative rounded exponent = none := by
  by_cases carry : rounded = 1 <<< 53
  · simp only [pack, if_pos carry]
    rw [dif_neg fun canonical => by have := (canonical_iff.1 canonical).2.2.1; omega]
  · simp only [pack, if_neg carry]
    rw [dif_neg fun canonical => by have := (canonical_iff.1 canonical).2.2.1; omega]

/-- The number `significand · 2 ^ exponent`, without its sign. -/
def magnitude (x : Binary64) : ℚ :=
  x.significand * 2 ^ x.exponent

theorem magnitude_pos {x : Binary64} (nonzero : 0 < x.significand) : 0 < x.magnitude := by
  unfold magnitude
  positivity

theorem exponentOf_magnitude {x : Binary64} (nonzero : 0 < x.significand) :
    exponentOf x.magnitude = x.exponent := by
  obtain ⟨short, least, -, full⟩ := canonical_iff.1 x.canonical
  have pos := magnitude_pos nonzero
  have below : Int.log 2 x.magnitude < 53 + x.exponent := by
    rw [← lt_two_pow_iff pos, magnitude, zpow_add₀ two_ne_zero]
    exact mul_lt_mul_of_pos_right (by exact_mod_cast short) (by positivity)
  unfold exponentOf
  -- a full significand settles the logarithm; any other one has the least exponent
  rcases full with full | least_exponent
  · have above : 52 + x.exponent ≤ Int.log 2 x.magnitude := by
      rw [← two_pow_le_iff pos, magnitude, zpow_add₀ two_ne_zero]
      exact mul_le_mul_of_nonneg_right (by exact_mod_cast full) (by positivity)
    omega
  · omega

theorem ofRatio_magnitude {x : Binary64} (nonzero : 0 < x.significand) {num den : Nat}
    (num_pos : 0 < num) (den_pos : 0 < den) (eq : (num : ℚ) / den = x.magnitude) :
    ofRatio x.negative num den = some x := by
  rw [ofRatio_eq x.negative num_pos den_pos, eq, exponentOf_magnitude nonzero]
  have exact : roundHalfEven (scale 2 (-x.exponent) num den).1 (scale 2 (-x.exponent) num den).2 =
      x.significand := by
    rw [← roundHalfEven_one x.significand]
    refine roundHalfEven_congr (scale_snd_pos _ _ two_pos den_pos) one_pos ?_
    rw [scale_quotient, eq, magnitude, mul_assoc, Nat.cast_ofNat, ← zpow_add₀ two_ne_zero]
    simp
  simp only [exact]
  exact pack_of_canonical x.negative x.canonical

theorem ofRatio_eq_none {num den : Nat} (negative : Bool) (num_pos : 0 < num) (den_pos : 0 < den)
    (large : (2 : ℚ) ^ (1024 : Int) ≤ (num : ℚ) / den) : ofRatio negative num den = none := by
  rw [ofRatio_eq negative num_pos den_pos]
  refine pack_eq_none negative _ ?_
  have log := (two_pow_le_iff (quotient_pos num_pos den_pos) 1024).1 large
  unfold exponentOf
  omega

theorem ofRatio_eq_zero {num den : Nat} (negative : Bool) (num_pos : 0 < num) (den_pos : 0 < den)
    (small : (num : ℚ) / den < 2 ^ (-1080 : Int)) :
    ofRatio negative num den = some (zero negative) := by
  have exponent : exponentOf ((num : ℚ) / den) = -1074 := by
    have log := (lt_two_pow_iff (quotient_pos num_pos den_pos) (-1080)).1 small
    unfold exponentOf
    omega
  rw [ofRatio_eq negative num_pos den_pos, exponent]
  have rounded : roundHalfEven (scale 2 (- -1074) num den).1 (scale 2 (- -1074) num den).2 = 0 := by
    have snd_pos : (0 : ℚ) < (scale 2 (- -1074) num den).2 := by
      exact_mod_cast scale_snd_pos num (- -1074) two_pos den_pos
    have quotient := scale_quotient 2 (- -1074) num den
    refine roundHalfEven_eq_zero ?_
    -- six bits below the least exponent nothing comes near a half
    have lt : ((scale 2 (- -1074) num den).1 : ℚ) / (scale 2 (- -1074) num den).2 < 1 / 2 := by
      rw [quotient]
      calc (num : ℚ) / den * ((2 : ℕ) : ℚ) ^ (- -1074 : Int)
          < 2 ^ (-1080 : Int) * ((2 : ℕ) : ℚ) ^ (- -1074 : Int) :=
            mul_lt_mul_of_pos_right small (by positivity)
        _ = 2 ^ (-6 : Int) := by rw [Nat.cast_ofNat, ← zpow_add₀ two_ne_zero]; congr 1
        _ < 1 / 2 := by norm_num
    rw [div_lt_div_iff₀ snd_pos two_pos] at lt
    have cross : (2 * (scale 2 (- -1074) num den).1 : ℚ) < (scale 2 (- -1074) num den).2 := by
      linarith
    exact_mod_cast cross
  simp only [rounded]
  exact pack_of_canonical negative (zero negative).canonical

theorem ten_pow_pos (exponent : Int) : (0 : ℚ) < 10 ^ exponent := by
  positivity

theorem scale_ten_quotient (digits : Nat) (exponent : Int) :
    ((scale 10 exponent digits 1).1 : ℚ) / (scale 10 exponent digits 1).2 =
      digits * 10 ^ exponent := by
  simpa using scale_quotient 10 exponent digits 1

theorem two_pow_le_ten_pow : (2 : ℚ) ^ (1024 : Int) ≤ 10 ^ (310 : Int) := by
  have powers : 2 ^ 1024 ≤ 10 ^ 310 := by decide +kernel
  exact_mod_cast powers

theorem ten_pow_le_two_pow {exponent : Int} (le : exponent ≤ 0) :
    (10 : ℚ) ^ exponent ≤ 2 ^ (3 * exponent) := by
  obtain ⟨n, rfl⟩ : ∃ n : Nat, exponent = -n := ⟨(-exponent).toNat, by omega⟩
  rw [mul_neg, zpow_neg, zpow_neg, zpow_natCast, zpow_mul]
  exact inv_anti₀ (by positivity) (pow_le_pow_left₀ (by norm_num) (by norm_num) n)

/-- The exponents that settle the answer by themselves settle it the way rounding would. -/
theorem ofDecimal_eq {digits : Nat} (negative : Bool) (exponent : Int) (pos : 0 < digits) :
    ofDecimal negative digits exponent =
      ofRatio negative (scale 10 exponent digits 1).1 (scale 10 exponent digits 1).2 := by
  have base_pos : 0 < 10 := by decide
  have fst_pos := scale_fst_pos 1 exponent base_pos pos
  have snd_pos := scale_snd_pos digits exponent base_pos one_pos
  unfold ofDecimal
  rw [if_neg pos.ne']
  -- the first shortcut is taken beyond the greatest number, the second one below the least
  split
  · rename_i large
    refine (ofRatio_eq_none negative fst_pos snd_pos ?_).symm
    rw [scale_ten_quotient]
    calc (2 : ℚ) ^ (1024 : Int) ≤ 10 ^ (310 : Int) := two_pow_le_ten_pow
      _ ≤ 10 ^ exponent := zpow_le_zpow_right₀ (by norm_num) large.le
      _ ≤ digits * 10 ^ exponent :=
        le_mul_of_one_le_left (ten_pow_pos exponent).le (by exact_mod_cast pos)
  · split
    · rename_i small
      refine (ofRatio_eq_zero negative fst_pos snd_pos ?_).symm
      rw [scale_ten_quotient]
      have negative_exponent : exponent ≤ 0 := by omega
      calc (digits : ℚ) * 10 ^ exponent
          ≤ digits * 2 ^ (3 * exponent) :=
            mul_le_mul_of_nonneg_left (ten_pow_le_two_pow negative_exponent) (by positivity)
        _ < 2 ^ ((digits.log2 : Int) + 1) * 2 ^ (3 * exponent) :=
            mul_lt_mul_of_pos_right (lt_two_pow_log2 digits) (by positivity)
        _ = 2 ^ ((digits.log2 : Int) + 1 + 3 * exponent) := (zpow_add₀ two_ne_zero _ _).symm
        _ ≤ 2 ^ (-1080 : Int) := zpow_le_zpow_right₀ one_le_two small.le
    · rfl

theorem ofDecimal_congr {digits digits' : Nat} {exponent exponent' : Int} (negative : Bool)
    (eq : (digits : ℚ) * 10 ^ exponent = digits' * 10 ^ exponent') :
    ofDecimal negative digits exponent = ofDecimal negative digits' exponent' := by
  rcases Nat.eq_zero_or_pos digits with rfl | pos
  · have zero' : digits' = 0 := by
      have := ten_pow_pos exponent'
      simpa [this.ne'] using eq.symm
    simp [ofDecimal, zero']
  · have pos' : 0 < digits' := by
      have positive : (0 : ℚ) < digits' * 10 ^ exponent' := eq ▸ by positivity
      exact_mod_cast pos_of_mul_pos_left positive (ten_pow_pos exponent').le
    rw [ofDecimal_eq negative exponent pos, ofDecimal_eq negative exponent' pos']
    refine ofRatio_congr negative (scale_fst_pos _ _ (by decide) pos)
      (scale_snd_pos _ _ (by decide) one_pos) (scale_fst_pos _ _ (by decide) pos')
      (scale_snd_pos _ _ (by decide) one_pos) ?_
    rw [scale_ten_quotient, scale_ten_quotient, eq]

end Admission.Binary64
