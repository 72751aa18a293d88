import Admission.Json.Document
import Admission.Json.Tree

/-! The value of a JSON text. -/

set_option autoImplicit false

namespace Admission.Json

def Scalar.value : Scalar → Except Fault Tree
  | .null => .ok .null
  | .bool value => .ok (.bool value)
  | .number value => value.map .number
  | .string value => value.map .string

/-- How many brackets may be open at once. -/
def nestingLimit : Nat := 127

mutual

/-- The value of a node inside which `room` more brackets may open. The first fault in the order of
the text wins, and the last of repeated members. -/
def Node.value (node : Node) (room : Nat) : Except Fault Tree :=
  match node with
  | .scalar value _ _ => value.value
  | .array start _ items ending =>
    match room with
    | 0 => .error ⟨.recursionLimit, start + 1⟩
    | room + 1 => (itemValues items room ending []).map .array
  | .object start members ending =>
    match room with
    | 0 => .error ⟨.recursionLimit, start + 1⟩
    | room + 1 =>
      (memberValues members room ending []).map fun members => .object (.ofList members)
  | .broken _ fault => .error fault.reading

def itemValues (items : List Node) (room : Nat) (ending : Ending) (read : List Tree) :
    Except Fault (List Tree) :=
  match items with
  | [] =>
    match ending with
    | .closed _ => .ok read.reverse
    | .broken fault => .error fault.reading
  | item :: items =>
    match item.value room with
    | .ok value => itemValues items room ending (value :: read)
    | .error fault => .error fault

def memberValues (members : List (Key × Node)) (room : Nat) (ending : Ending)
    (read : Entries Tree) : Except Fault (Entries Tree) :=
  match members with
  | [] =>
    match ending with
    | .closed _ => .ok read.reverse
    | .broken fault => .error fault.reading
  | (key, value) :: members =>
    match key.text with
    | .error fault => .error fault
    | .ok text =>
      match value.value room with
      | .ok value => memberValues members room ending ((text, value) :: read)
      | .error fault => .error fault

end

def Document.readWith {α : Type} (document : Document) (read : Node → Except Fault α) :
    Except Fault α :=
  match read document.root, document.trailing with
  | .ok _, some fault => .error fault
  | result, _ => result

def Document.value (document : Document) : Except Fault Tree :=
  document.readWith (·.value nestingLimit)

def parse (bytes : List UInt8) : Except Error Tree :=
  (document bytes).value.mapError (·.locate bytes)

end Admission.Json
