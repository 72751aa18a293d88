/-! Naturals in text. -/

set_option autoImplicit false

namespace Admission.Text

def digit? (base : Nat) (c : Char) : Option Nat :=
  let value? :=
    if '0' ≤ c ∧ c ≤ '9' then some (c.toNat - '0'.toNat)
    else if 'a' ≤ c ∧ c ≤ 'f' then some (c.toNat - 'a'.toNat + 10)
    else if 'A' ≤ c ∧ c ≤ 'F' then some (c.toNat - 'A'.toNat + 10)
    else none
  value?.filter fun value => value < base

inductive NaturalError where
  | empty
  | invalidDigit
  | overflow
  deriving DecidableEq

def NaturalError.message : NaturalError → String
  | .empty => "cannot parse integer from empty string"
  | .invalidDigit => "invalid digit found in string"
  | .overflow => "number too large to fit in target type"

def readDigits (digits : List Char) (value : Nat) : Except NaturalError Nat :=
  match digits with
  | [] => .ok value
  | c :: digits =>
    match digit? 10 c with
    | none => .error .invalidDigit
    | some digit =>
      if 10 * value + digit < UInt64.size then readDigits digits (10 * value + digit)
      else .error .overflow

/-- Read a natural of 64 bits, behind a plus sign perhaps. The first fault counts. -/
def readNatural (text : String) : Except NaturalError Nat :=
  match text.toList with
  | [] => .error .empty
  | ['+'] => .error .invalidDigit
  | '+' :: digits => readDigits digits 0
  | digits => readDigits digits 0

end Admission.Text
