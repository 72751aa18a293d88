import Admission.Json.Fault
import Admission.Json.Tree
import Admission.Text.Base64
import Admission.Text.Timestamp
import Admission.Text.Utf8

/-! Schemas of Kubernetes types. Decoding brings a JSON value into the form in which a value of the
type is written: unknown members and null ones are dropped, defaults are filled in, and instants are
in universal time. -/

set_option autoImplicit false

namespace Admission.Kubernetes

inductive Presence where
  /-- Left out when missing. -/
  | optional
  /-- Written as the default of its type when missing. -/
  | defaulted

inductive Schema where
  | boolean
  | string
  | constant (text : String)
  | int32
  | int64
  | intOrString
  /-- A string; a number stands for its text. -/
  | quantity
  | anything
  /-- Bytes in base64; null stands for none. -/
  | bytes
  | time
  | list (item : Schema)
  | map (value : Schema)
  | record (name : String) (fields : List (String × Presence × Schema))

abbrev Field := String × Presence × Schema

open Json (Mismatch Tree)

/-- Numbers as text, without an exponent and without a point where there is no fraction. -/
def quantityNotation : Binary64.Notation :=
  ⟨none, false, false⟩

def unexpected {α : Type} (json : Json) (expected : String) : Except Mismatch α :=
  .error (.invalidType json.found expected)

def decodeString (json : Json) : Except Mismatch Tree :=
  match json with
  | .string text => .ok (.string text)
  | _ => unexpected json "a string"

def decodeConstant (text : String) (json : Json) : Except Mismatch Tree :=
  match json with
  | .string given =>
    if given = text then .ok (.string text) else .error (.invalidValue (.string given) text)
  | _ => unexpected json "a string"

def decodeInteger (bits : Nat) (expected outOfRange : String) (json : Json) : Except Mismatch Tree :=
  match json with
  | .number (.integer value range) =>
    if -(1 <<< bits : Nat) ≤ value ∧ value < (1 <<< bits : Nat) then
      .ok (.number (.integer value range))
    else .error (.invalidValue (.number (.integer value range)) outOfRange)
  | _ => unexpected json expected

def decodeBytes (json : Json) : Except Mismatch Tree :=
  match json with
  | .null => .ok (.string "")
  | .string text =>
    match Base64.decode (Text.utf8Bytes text) with
    | .ok bytes => .ok (.string (Base64.encode bytes))
    | .error error => .error (.malformed error.message)
  | _ => unexpected json "a base64-encoded string"

def decodeTime (json : Json) : Except Mismatch Tree :=
  match json with
  | .string text =>
    match Timestamp.read? text with
    | some instant => .ok (.string (Timestamp.write instant))
    | none => .error (.malformed "not a timestamp")
  | _ => unexpected json "a timestamp string"

def decodeScalar (schema : Schema) (json : Json) : Except Mismatch Tree :=
  match schema, json with
  | .boolean, .bool value => .ok (.bool value)
  | .boolean, _ => unexpected json "a boolean"
  | .string, _ => decodeString json
  | .constant text, _ => decodeConstant text json
  | .int32, _ => decodeInteger 31 "i32" "i32" json
  | .int64, _ => decodeInteger 63 "i64" "i64" json
  | .intOrString, .string text => .ok (.string text)
  | .intOrString, _ => decodeInteger 31 "IntOrString" "a 32-bit integer" json
  | .quantity, .string text => .ok (.string text)
  | .quantity, .number (.integer value _) => .ok (.string (toString value))
  | .quantity, .number (.float value) => .ok (.string (value.text quantityNotation))
  | .quantity, _ => unexpected json "Quantity"
  | .bytes, _ => decodeBytes json
  | .time, _ => decodeTime json
  | .list _, _ => unexpected json "a sequence"
  | .map _, _ => unexpected json "a map"
  | .record name _, _ => unexpected json name
  | .anything, _ => .ok (.ofJson json)

mutual

def Schema.initial : Schema → Tree
  | .boolean => .bool false
  | .constant text => .string text
  | .int32 | .int64 | .intOrString => .number (.integer 0 (by decide))
  | .anything => .null
  | .string | .quantity | .bytes | .time => .string ""
  | .list _ => .array []
  | .map _ => .object ∅
  | .record _ fields => .object (.ofList (initialFields fields))

def initialFields : List Field → Entries Tree
  | [] => []
  | (_, .optional, _) :: fields => initialFields fields
  | (name, .defaulted, schema) :: fields => (name, schema.initial) :: initialFields fields

end

/-- A null field counts as missing, but for a constant one. -/
def Schema.skipsNull (schema : Schema) (json : Json) : Bool :=
  match schema, json with
  | .constant _, _ => false
  | _, .null => true
  | _, _ => false

def fillFields (fields : List Field) (decoded : Entries Tree) : Entries Tree :=
  match fields with
  | [] => []
  | (name, presence, schema) :: fields =>
    match decoded.lookup name, presence with
    | some value, _ => (name, value) :: fillFields fields decoded
    | none, .defaulted => (name, schema.initial) :: fillFields fields decoded
    | none, .optional => fillFields fields decoded

mutual

/-- The written form of a value of the schema. Members are looked at in their order, and the first
mismatch is reported. -/
def decode (schema : Schema) (json : Json) : Except Mismatch Tree :=
  match json with
  | .array items =>
    match schema with
    | .list item => (decodeItems item items).map .array
    | schema => decodeScalar schema (.array items)
  | .object members =>
    match schema with
    | .map value => (decodeValues value members).map fun decoded => .object (.ofList decoded)
    | .record _ fields =>
      (decodeMembers fields members).map fun decoded =>
        .object (.ofList (fillFields fields decoded))
    | schema => decodeScalar schema (.object members)
  | json => decodeScalar schema json

def decodeItems (schema : Schema) (items : List Json) : Except Mismatch (List Tree) :=
  match items with
  | [] => .ok []
  | item :: items =>
    match decode schema item with
    | .error error => .error error
    | .ok item => (decodeItems schema items).map (item :: ·)

def decodeValues (schema : Schema) (members : List (String × Json)) :
    Except Mismatch (Entries Tree) :=
  match members with
  | [] => .ok []
  | (key, value) :: members =>
    match decode schema value with
    | .error error => .error error
    | .ok value => (decodeValues schema members).map ((key, value) :: ·)

def decodeMembers (fields : List Field) (members : List (String × Json)) :
    Except Mismatch (Entries Tree) :=
  match members with
  | [] => .ok []
  | (key, value) :: members =>
    match fields.lookup key with
    | none => decodeMembers fields members
    | some (_, schema) =>
      if schema.skipsNull value then decodeMembers fields members
      else
        match decode schema value with
        | .error error => .error error
        | .ok value => (decodeMembers fields members).map ((key, value) :: ·)

end

end Admission.Kubernetes
