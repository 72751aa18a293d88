/-! Finite binary64 numbers and the one nearest to a decimal. Numbers are printed by the nearest one,
and YAML is read by it. -/

set_option autoImplicit false

namespace Admission

/-- Significand and exponent of a finite binary64, the subnormal ones at the least exponent. -/
def Binary64.Canonical (significand : Nat) (exponent : Int) : Prop :=
  significand < 1 <<< 53 ∧ -1074 ≤ exponent ∧ exponent ≤ 971 ∧
    (1 <<< 52 ≤ significand ∨ exponent = -1074)

instance (significand : Nat) (exponent : Int) :
    Decidable (Binary64.Canonical significand exponent) := by
  unfold Binary64.Canonical; infer_instance

/-- The number `± significand · 2 ^ exponent`. Zero has a sign. -/
structure Binary64 where
  negative : Bool
  significand : Nat
  exponent : Int
  canonical : Binary64.Canonical significand exponent
  deriving DecidableEq

namespace Binary64

def zero (negative : Bool) : Binary64 :=
  ⟨negative, 0, -1074, by decide⟩

def isZero (x : Binary64) : Bool :=
  x.significand == 0

/-- Equality of the numbers meant: the two zeros are one number. -/
def same (x y : Binary64) : Bool :=
  decide (x = y) || (x.isZero && y.isZero)

def abs (x : Binary64) : Binary64 :=
  { x with negative := false }

/-- `num / den · base ^ exponent` as a quotient of naturals. -/
def scale (base : Nat) (exponent : Int) (num den : Nat) : Nat × Nat :=
  if 0 ≤ exponent then (num * Nat.pow base exponent.toNat, den)
  else (num, den * Nat.pow base (-exponent).toNat)

def ratio (x : Binary64) : Nat × Nat :=
  scale 2 x.exponent x.significand 1

/-- The greatest `k` with `2 ^ k ≤ num / den`, for positive `num` and `den`. -/
def floorLog2 (num den : Nat) : Int :=
  let k : Int := (num.log2 : Int) - (den.log2 : Int)
  let (num, den) := scale 2 (-k) num den
  if den ≤ num then k else k - 1

/-- Nearest natural to `num / den`, a half going to the even neighbour. -/
def roundHalfEven (num den : Nat) : Nat :=
  let quotient := num / den
  let twice := 2 * (num % den)
  if twice < den then quotient
  else if den < twice then quotient + 1
  else quotient + quotient % 2

/-- The binary64 nearest to `± num / den`, a half going to the even significand; none when the
magnitude rounds beyond the greatest finite one. -/
def ofRatio (negative : Bool) (num den : Nat) : Option Binary64 :=
  if num = 0 then some (zero negative)
  else
    let exponent := max (floorLog2 num den - 52) (-1074)
    let (num, den) := scale 2 (-exponent) num den
    let rounded := roundHalfEven num den
    let (significand, exponent) :=
      if rounded = 1 <<< 53 then (1 <<< 52, exponent + 1) else (rounded, exponent)
    if h : Canonical significand exponent then some ⟨negative, significand, exponent, h⟩ else none

/-- The binary64 nearest to `± digits · 10 ^ exponent`; none when that is out of range. Exponents
that settle the answer by themselves are not expanded. -/
def ofDecimal (negative : Bool) (digits : Nat) (exponent : Int) : Option Binary64 :=
  if digits = 0 then some (zero negative)
  else if 310 < exponent then none
  else if (digits.log2 : Int) + 1 + 3 * exponent < -1080 then some (zero negative)
  else
    let (num, den) := scale 10 exponent digits 1
    ofRatio negative num den

end Binary64

end Admission
