import Admission.Json.Printer

/-! The values that spans and measurements are exported with. -/

set_option autoImplicit false

namespace Admission

inductive Attribute where
  | bool (value : Bool)
  | integer (value : Int)
  | float (value : Binary64)
  | text (value : String)
  deriving DecidableEq

def Binary64.ofInteger (value : Int) : Binary64 :=
  (ofRatio (decide (value < 0)) value.natAbs 1).getD (zero false)

/-- Integers that need more than 63 bits are exported as floats, lists and objects as text. -/
def Attribute.ofJson : Json → Attribute
  | .bool value => .bool value
  | .number (.integer value _) =>
    if value < 9223372036854775808 then .integer value else .float (.ofInteger value)
  | .number (.float value) => .float value
  | .string value => .text value
  | value => .text value.render

/-- Floats of an export end in `.0` if whole, and are positional from `0.0001` to below
`1e16`. -/
def Attribute.floatNotation : Binary64.Notation :=
  { positional := some (-4, 16), pointZero := true, plus := false }

end Admission
