import Admission.Json.Basic

/-! JSON pointers: the way from the root of a value to a place in it. -/

set_option autoImplicit false

namespace Admission.Json

/-- The steps of a pointer: keys, or texts of indexes. -/
abbrev Pointer := List String

namespace Pointer

/-- The text of a step without its escapes: `~1` is a slash, and then `~0` a tilde. -/
def unescape (text : List Char) : List Char :=
  let rec replace (escaped char : Char) : List Char → List Char
    | '~' :: c :: rest =>
      if c = escaped then char :: replace escaped char rest
      else '~' :: replace escaped char (c :: rest)
    | c :: rest => c :: replace escaped char rest
    | [] => []
  replace '0' '~' (replace '1' '/' text)

def escape (text : List Char) : List Char :=
  text.flatMap fun c =>
    if c = '~' then ['~', '0'] else if c = '/' then ['~', '1'] else [c]

def splitSlashes (text : List Char) (part : List Char) : List (List Char) :=
  match text with
  | [] => [part.reverse]
  | c :: rest => if c = '/' then part.reverse :: splitSlashes rest [] else splitSlashes rest (c :: part)

def ofText? (text : String) : Option Pointer :=
  match text.toList with
  | [] => some []
  | '/' :: rest => some ((splitSlashes rest []).map fun part => String.ofList (unescape part))
  | _ => none

def text (pointer : Pointer) : String :=
  String.join (pointer.map fun step => "/" ++ String.ofList (escape step.toList))

/-- The index that a step stands for: digits without a leading zero. -/
def index? (step : String) : Option Nat :=
  let digits := step.toList
  if digits.isEmpty || !digits.all Char.isDigit || (1 < digits.length && digits.head? = some '0') then
    none
  else some (digits.foldl (fun value c => 10 * value + (c.toNat - 48)) 0)

end Pointer

def step? (json : Json) (step : String) : Option Json :=
  match json with
  | .object members => Entries.find? members step
  | .array items => (Pointer.index? step).bind fun index => items[index]?
  | _ => none

def at? (json : Json) (pointer : Pointer) : Option Json :=
  match pointer with
  | [] => some json
  | step :: pointer => (json.step? step).bind fun json => json.at? pointer

end Admission.Json
