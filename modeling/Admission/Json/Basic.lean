import Admission.SortedMap
import Admission.Number.Notation

/-! JSON values. A number is an integer of 64 bits, signed or unsigned, or a binary64. -/

set_option autoImplicit false

namespace Admission

/-- The integers that are kept as such, from `-2 ^ 63` up to but not including `2 ^ 64`; any other
number is a binary64. -/
def Json.IsInteger (value : Int) : Prop :=
  -9223372036854775808 ≤ value ∧ value < 18446744073709551616

instance (value : Int) : Decidable (Json.IsInteger value) := by
  unfold Json.IsInteger; infer_instance

inductive Json.Number where
  | integer (value : Int) (range : Json.IsInteger value)
  | float (value : Binary64)
  deriving DecidableEq

/-- Members of an object stand in the order in which they are printed. -/
inductive Json where
  | null
  | bool (value : Bool)
  | number (value : Json.Number)
  | string (value : String)
  | array (items : List Json)
  | object (members : List (String × Json))
  deriving Inhabited

namespace Json

/-- `1` and `1.0` are two numbers, `0.0` and `-0.0` are one. -/
def Number.same : Number → Number → Bool
  | .integer a _, .integer b _ => a == b
  | .float a, .float b => a.same b
  | _, _ => false

def Number.ofInt? (value : Int) : Option Number :=
  if h : IsInteger value then some (.integer value h) else none

mutual

def same : Json → Json → Bool
  | .null, .null => true
  | .bool a, .bool b => a == b
  | .number a, .number b => a.same b
  | .string a, .string b => a == b
  | .array xs, .array ys => sameItems xs ys
  | .object xs, .object ys => sameMembers xs ys
  | _, _ => false

def sameItems : List Json → List Json → Bool
  | [], [] => true
  | x :: xs, y :: ys => same x y && sameItems xs ys
  | _, _ => false

def sameMembers : List (String × Json) → List (String × Json) → Bool
  | [], [] => true
  | (k, x) :: xs, (l, y) :: ys => k == l && same x y && sameMembers xs ys
  | _, _ => false

end

/-- Every object lists its members in increasing key order, each key once. -/
inductive Canonical : Json → Prop where
  | null : Canonical .null
  | bool (value : Bool) : Canonical (.bool value)
  | number (value : Number) : Canonical (.number value)
  | string (value : String) : Canonical (.string value)
  | array {items : List Json} (items_canonical : ∀ item ∈ items, Canonical item) :
    Canonical (.array items)
  | object {members : List (String × Json)} (sorted : Entries.Sorted members)
    (members_canonical : ∀ member ∈ members, Canonical member.2) : Canonical (.object members)

namespace Canonical

theorem of_mem_items {items : List Json} (canonical : Canonical (.array items)) :
    ∀ item ∈ items, Canonical item := by
  cases canonical; assumption

theorem of_mem_members {members : List (String × Json)} (canonical : Canonical (.object members)) :
    ∀ member ∈ members, Canonical member.2 := by
  cases canonical; assumption

theorem members_sorted {members : List (String × Json)} (canonical : Canonical (.object members)) :
    Entries.Sorted members := by
  cases canonical; assumption

end Canonical

def member? (key : String) : Json → Option Json
  | .object members => Entries.find? members key
  | _ => none

def string? : Json → Option String
  | .string value => some value
  | _ => none

def members? : Json → Option (Entries Json)
  | .object members => some members
  | _ => none

def isObject : Json → Bool
  | .object _ => true
  | _ => false

def ofMap (map : SortedMap Json) : Json :=
  .object map.entries

def ofStringMap (map : SortedMap String) : Json :=
  ofMap (map.mapValues .string)

end Json

end Admission
