import Admission.Json.Pointer
import Admission.Json.Printer

/-! JSON patches: lists of operations that are applied one after the other. The difference of two
values is a patch that makes the second one out of the first. -/

set_option autoImplicit false

namespace Admission.Json

inductive Patch.Operation where
  | add (path : Pointer) (value : Json)
  | remove (path : Pointer)
  | replace (path : Pointer) (value : Json)

abbrev Patch := List Patch.Operation

namespace Patch

def Operation.under (step : String) : Operation → Operation
  | .add path value => .add (step :: path) value
  | .remove path => .remove (step :: path)
  | .replace path value => .replace (step :: path) value

/-- A patch of the value behind a step, as a patch of the whole value. -/
def under (step : String) (patch : Patch) : Patch :=
  patch.map (Operation.under step)

def Operation.toJson : Operation → Json
  | .add path value =>
    .object [("op", .string "add"), ("path", .string path.text), ("value", value)]
  | .remove path => .object [("op", .string "remove"), ("path", .string path.text)]
  | .replace path value =>
    .object [("op", .string "replace"), ("path", .string path.text), ("value", value)]

def toJson (patch : Patch) : Json :=
  .array (patch.map Operation.toJson)

end Patch

mutual

/-- Objects are compared member by member and arrays index by index. Anything else is replaced if
it differs. -/
def diff (old new : Json) : Patch :=
  match new, old with
  | .object newMembers, .object oldMembers =>
    diffMembers oldMembers newMembers
      ++ (oldMembers.filter fun member => !Entries.contains newMembers member.1).map
        fun member => .remove [member.1]
  | .array newItems, .array oldItems => diffItems 0 oldItems newItems
  | new, old => if old.same new then [] else [.replace [] new]

def diffMembers (old new : List (String × Json)) : Patch :=
  match new with
  | [] => []
  | (key, value) :: new =>
    (match Entries.find? old key with
      | some previous => Patch.under key (diff previous value)
      | none => [.add [key] value])
      ++ diffMembers old new

/-- The items from an index on. Surplus items all go from the index where the new ones end. -/
def diffItems (index : Nat) (old new : List Json) : Patch :=
  match new, old with
  | [], old => old.map fun _ => .remove [toString index]
  | value :: new, [] => .add [toString index] value :: diffItems (index + 1) [] new
  | value :: new, previous :: old =>
    Patch.under (toString index) (diff previous value) ++ diffItems (index + 1) old new

end

end Admission.Json
