import Admission.Json.Basic

/-! The compact text of a JSON value. -/

set_option autoImplicit false

namespace Admission.Json

/-- Whole numbers from `10 ^ -5` up to but not including `10 ^ 16` are positional and keep a digit
after the point, so that a binary64 never reads back as an integer. -/
def floatNotation : Binary64.Notation :=
  ⟨some (-5, 16), true, true⟩

def Number.text : Number → String
  | .integer value _ => toString value
  | .float value => value.text floatNotation

def escape (c : Char) : String :=
  match c with
  | '"' => "\\\""
  | '\\' => "\\\\"
  | '\x08' => "\\b"
  | '\t' => "\\t"
  | '\n' => "\\n"
  | '\x0c' => "\\f"
  | '\r' => "\\r"
  | c =>
    if c.toNat < 0x20 then
      "\\u00" ++ String.ofList [Nat.digitChar (c.toNat / 16), Nat.digitChar (c.toNat % 16)]
    else c.toString

def writeString (text : String) (out : String) : String :=
  (text.toList.foldl (fun out c => out ++ escape c) (out.push '"')).push '"'

mutual

def write : Json → String → String
  | .null, out => out ++ "null"
  | .bool value, out => out ++ (if value then "true" else "false")
  | .number value, out => out ++ value.text
  | .string value, out => writeString value out
  | .array [], out => out ++ "[]"
  | .array (item :: items), out => writeItems items (write item (out.push '['))
  | .object [], out => out ++ "\x7b\x7d"
  | .object ((key, value) :: members), out =>
    writeMembers members (write value ((writeString key (out.push '\x7b')).push ':'))

def writeItems : List Json → String → String
  | [], out => out.push ']'
  | item :: items, out => writeItems items (write item (out.push ','))

def writeMembers : List (String × Json) → String → String
  | [], out => out.push '\x7d'
  | (key, value) :: members, out =>
    writeMembers members (write value ((writeString key (out.push ',')).push ':'))

end

def render (value : Json) : String :=
  write value ""

end Admission.Json
