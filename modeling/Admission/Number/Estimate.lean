import Admission.Number.Binary64

/-! The estimate of a decimal. Its digits and the power of ten are rounded each by itself, and so is
what they give together, so that the estimate is close to the decimal but need not be nearest to it:
that of `6e49` is the binary64 below the nearest one. JSON is read by estimates. -/

set_option autoImplicit false

namespace Admission.Binary64

/-- The binary64 nearest to a product; none when that is out of range. -/
def times (x y : Binary64) : Option Binary64 :=
  ofRatio (x.negative != y.negative) (x.ratio.1 * y.ratio.1) (x.ratio.2 * y.ratio.2)

def dividedBy (x y : Binary64) : Option Binary64 :=
  if y.isZero then none
  else ofRatio (x.negative != y.negative) (x.ratio.1 * y.ratio.2) (x.ratio.2 * y.ratio.1)

def tenPowerLimit : Nat := 308

def tenPower (power : Nat) : Option Binary64 :=
  ofDecimal false 1 power

/-- `x · 10 ^ power`. Beyond the greatest power of ten only zero is still in range. -/
def timesTenPower (x : Binary64) (power : Nat) : Option Binary64 :=
  if power ≤ tenPowerLimit then (tenPower power).bind x.times
  else if x.isZero then some x
  else none

/-- `x / 10 ^ power` after as many `rounds` of dividing by the greatest power of ten. What has become
zero is not divided any more. -/
def overTenPower (x : Binary64) (rounds power : Nat) : Option Binary64 :=
  match rounds with
  | 0 => (tenPower power).bind x.dividedBy
  | rounds + 1 =>
    if x.isZero then some x
    else do
      let quotient ← (tenPower tenPowerLimit).bind x.dividedBy
      quotient.overTenPower rounds power

/-- The estimate of `± digits · 10 ^ exponent`; none when that is out of range. -/
def estimate (negative : Bool) (digits : Nat) (exponent : Int) : Option Binary64 := do
  let x ← ofRatio false digits 1
  let y ← match exponent with
    | .ofNat power => x.timesTenPower power
    | .negSucc less => x.overTenPower (less / tenPowerLimit) (less % tenPowerLimit + 1)
  return { y with negative }

end Admission.Binary64
