import Admission.Number.Shortest

/-! Texts of a binary64: the shortest digits, laid out positionally or with an exponent. -/

set_option autoImplicit false

namespace Admission.Binary64

structure Notation where
  /-- The exponents of the leading digit that are written positionally; none means all. -/
  positional : Option (Int × Int)
  /-- Whether a whole number in positional form ends in `.0`. -/
  pointZero : Bool
  /-- Whether an exponent that is not negative carries a plus sign. -/
  plus : Bool

def digitText (n : Nat) : String :=
  String.ofList (Nat.toDigits 10 n)

def zeros (n : Nat) : String :=
  String.ofList (List.replicate n '0')

/-- Digits with the point placed so that the first digit counts `10 ^ exponent`. -/
def positionalText (layout : Notation) (digits : List Char) (exponent : Int) : String :=
  let count := digits.length
  if exponent < 0 then "0." ++ zeros (-exponent - 1).toNat ++ String.ofList digits
  else
    let whole := exponent.toNat + 1
    if count ≤ whole then
      String.ofList digits ++ zeros (whole - count) ++ (if layout.pointZero then ".0" else "")
    else String.ofList (digits.take whole) ++ "." ++ String.ofList (digits.drop whole)

def exponentText (layout : Notation) (digits : List Char) (exponent : Int) : String :=
  let mantissa := match digits with
    | [] => "0"
    | [d] => d.toString
    | d :: rest => d.toString ++ "." ++ String.ofList rest
  let sign := if exponent < 0 then "-" else if layout.plus then "+" else ""
  mantissa ++ "e" ++ sign ++ digitText exponent.natAbs

def text (x : Binary64) (layout : Notation) : String :=
  let decimal := x.shortest
  let digits := Nat.toDigits 10 decimal.digits
  let exponent := decimal.exponent + digits.length - 1
  let positional := match layout.positional with
    | none => true
    | some (least, limit) => least ≤ exponent && exponent < limit
  let magnitude :=
    if positional then positionalText layout digits exponent
    else exponentText layout digits exponent
  if x.negative then "-" ++ magnitude else magnitude

end Admission.Binary64
