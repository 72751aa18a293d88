import Admission.Number.Binary64

/-! The fewest decimal digits that no other binary64 is nearer to. -/

set_option autoImplicit false

namespace Admission.Binary64

structure Decimal where
  digits : Nat
  exponent : Int
  deriving DecidableEq

/-- The binary64 nearest to the decimal is `x`. -/
def readsBack (x : Binary64) (decimal : Decimal) : Bool :=
  decide (ofDecimal x.negative decimal.digits decimal.exponent = some x)

/-- The least `k` at or above `start` with `num / den < 10 ^ k`, for at most `steps` steps. -/
def decimalScale (num den : Nat) (steps : Nat) (start : Int) : Int :=
  match steps with
  | 0 => start
  | steps + 1 =>
    let scaled := scale 10 (-start) num den
    if scaled.1 < scaled.2 then start else decimalScale num den steps (start + 1)

/-- The two neighbours of a magnitude on the grid of spacing `10 ^ exponent`, the nearer first and
of two equally near ones the even one first. -/
def neighbours (num den : Nat) (exponent : Int) : List Decimal :=
  let (num, den) := scale 10 (-exponent) num den
  let below := num / den
  let nearest := roundHalfEven num den
  let other := if nearest = below then below + 1 else below
  [⟨nearest, exponent⟩, ⟨other, exponent⟩]

def Decimal.strip (fuel : Nat) (decimal : Decimal) : Decimal :=
  match fuel with
  | 0 => decimal
  | fuel + 1 =>
    if decimal.digits % 10 = 0 ∧ decimal.digits ≠ 0 then
      strip fuel ⟨decimal.digits / 10, decimal.exponent + 1⟩
    else decimal

def exactDecimal (x : Binary64) : Decimal :=
  if 0 ≤ x.exponent then ⟨x.ratio.1, 0⟩
  else ⟨x.significand * Nat.pow 5 (-x.exponent).toNat, x.exponent⟩

/-- The first grid of 1, 2, … 17 digits with a neighbour that reads back gives the digits, the
nearer neighbour if both do. -/
def shortest (x : Binary64) : Decimal :=
  if x.isZero then ⟨0, 0⟩
  else
    let (num, den) := x.ratio
    let scale := decimalScale num den 5 (floorLog2 num den * 30103 / 100000 - 1)
    let candidates := (List.range 17).flatMap fun (n : Nat) =>
      (neighbours num den (scale - (n + 1))).map (Decimal.strip 20)
    (candidates.find? (readsBack x)).getD (exactDecimal x)

end Admission.Binary64
