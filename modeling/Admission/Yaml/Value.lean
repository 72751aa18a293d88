import Admission.Json.Tree
import Admission.Yaml.Tree
import Admission.Text.Utf8

/-! The JSON value of a YAML text. A float is the binary64 nearest to what is written. -/

set_option autoImplicit false

namespace Admission.Yaml

def digit? (c : Char) : Option Nat :=
  hexValue? c

def natural? (base : Nat) (digits : List Char) : Option Nat :=
  if digits.isEmpty then none
  else digits.foldl (fun value c =>
    value.bind fun value => (digit? c).bind fun digit =>
      if digit < base then some (base * value + digit) else none) (some 0)

/-- Digits that begin with a zero are no number. -/
def isPaddedNumber (text : List Char) : Bool :=
  let digits := match text with
    | '-' :: rest | '+' :: rest => rest
    | text => text
  1 < digits.length && digits.head? = some '0' && digits.all Char.isDigit

def unsigned? (padded : Bool) (text : List Char) (limit : Nat) : Option Nat :=
  let based : Option Nat := match text with
    | '0' :: 'x' :: rest => natural? 16 rest
    | '0' :: 'o' :: rest => natural? 8 rest
    | '0' :: 'b' :: rest => natural? 2 rest
    | _ => none
  let whole : Option Nat := match based with
    | some value => some value
    | none => if padded then none else natural? 10 text
  whole.bind fun value => if value ≤ limit then some value else none

def integer? (text : List Char) : Option Int :=
  let padded := isPaddedNumber text
  match text with
  | '-' :: rest => (unsigned? padded rest (1 <<< 127)).map fun value => -(value : Int)
  | '+' :: rest => (unsigned? padded rest (1 <<< 128 - 1)).map fun value => (value : Int)
  | text => (unsigned? padded text (1 <<< 128 - 1)).map fun value => (value : Int)

def decimal? (negative : Bool) (text : List Char) : Option Binary64 :=
  let (whole, rest) := (text.takeWhile Char.isDigit, text.dropWhile Char.isDigit)
  let (fraction, rest) := match rest with
    | '.' :: rest => (rest.takeWhile Char.isDigit, rest.dropWhile Char.isDigit)
    | rest => ([], rest)
  let exponent? : Option Int := match rest with
    | [] => some 0
    | 'e' :: rest | 'E' :: rest =>
      match rest with
      | '-' :: digits => (natural? 10 digits).map fun value => -(value : Int)
      | '+' :: digits => (natural? 10 digits).map fun value => (value : Int)
      | digits => (natural? 10 digits).map fun value => (value : Int)
    | _ => none
  if whole.isEmpty && fraction.isEmpty then none
  else exponent?.bind fun exponent =>
    (natural? 10 (whole ++ fraction)).bind fun digits =>
      Binary64.ofDecimal negative digits (exponent - fraction.length)

/-- A float, null standing for the ones that are not finite. -/
def float? (text : List Char) : Option Json.Tree :=
  let signless := match text with
    | '+' :: rest => rest
    | text => text
  if [".inf", ".Inf", ".INF"].contains (String.ofList signless) then some .null
  else if ["-.inf", "-.Inf", "-.INF", ".nan", ".NaN", ".NAN"].contains (String.ofList text) then
    some .null
  else
    let value? := match text with
      | '-' :: rest => decimal? true rest
      | '+' :: rest => decimal? false rest
      | text => decimal? false text
    value?.map fun value => .number (.float value)

def boolean? (text : String) : Option Json.Tree :=
  match text with
  | "true" | "True" | "TRUE" => some (.bool true)
  | "false" | "False" | "FALSE" => some (.bool false)
  | _ => none

def isNull (text : String) : Bool :=
  text = "~" || text = "null" || text = "Null" || text = "NULL"

/-- An integer that fits no JSON number is refused. -/
def number? (value : Int) : Option Json.Tree :=
  (Json.Number.ofInt? value).map .number

def plainValue (text : String) : Option Json.Tree :=
  if text.isEmpty || isNull text then some .null
  else match boolean? text, integer? text.toList with
    | some value, _ => some value
    | none, some value => number? value
    | none, none =>
      if isPaddedNumber text.toList then some (.string text)
      else some ((float? text.toList).getD (.string text))

def coreTag (name : String) : String :=
  "tag:yaml.org,2002:" ++ name

def scalarValue (tag : Option String) (style : ScalarStyle) (text : String) : Option Json.Tree :=
  match tag with
  | none => if style = .plain then plainValue text else some (.string text)
  | some tag =>
    if tag.startsWith "!" then none
    else if tag = coreTag "bool" then boolean? text
    else if tag = coreTag "int" then (integer? text.toList).bind number?
    else if tag = coreTag "float" then float? text.toList
    else if tag = coreTag "null" then (if isNull text then some .null else none)
    else some (.string text)

def isLocalTag (tag : Option String) : Bool :=
  tag.any (·.startsWith "!")

def aliasLimit : Nat := 100

def follow (reading : Reading) (followed : Nat) (tree : Tree) : Option (Tree × Nat) :=
  match tree with
  | .alias number =>
    if aliasLimit * reading.events < followed + 1 then none
    else (reading.nodes.lookup number).map fun tree => (tree, followed + 1)
  | tree => some (tree, followed)

def keyText? (reading : Reading) (followed : Nat) (key : Tree) : Option (String × Nat) :=
  match follow reading followed key with
  | some (.scalar _ _ text, followed) => some (text, followed)
  | _ => none

/-- The value of a node inside which `room` more collections may nest. -/
def value? (reading : Reading) (room : Nat) (followed : Nat) (tree : Tree) :
    Option (Json.Tree × Nat) :=
  (follow reading followed tree).bind fun (tree, followed) =>
    match tree, room with
    | .scalar tag style text, _ => (scalarValue tag style text).map fun value => (value, followed)
    | .alias _, _ | .sequence _ _, 0 | .mapping _ _, 0 => none
    | .sequence tag items, room + 1 =>
      if isLocalTag tag then none
      else
        let result := items.foldl (fun state item =>
          state.bind fun (values, followed) =>
            (value? reading room followed item).map fun (value, followed) =>
              (value :: values, followed)) (some ([], followed))
        result.map fun (values, followed) => (.array values.reverse, followed)
    | .mapping tag entries, room + 1 =>
      if isLocalTag tag then none
      else
        let result := entries.foldl (fun state (key, item) =>
          state.bind fun (members, followed) =>
            (keyText? reading followed key).bind fun (key, followed) =>
              (value? reading room followed item).map fun (value, followed) =>
                ((key, value) :: members, followed)) (some ([], followed))
        result.map fun (members, followed) =>
          (.object (.ofList members.reverse), followed)

def nestingLimit : Nat := 128

def parse (bytes : List UInt8) : Option Json.Tree :=
  (Text.ofUtf8? bytes).bind fun text =>
    (tokens? text.toList).bind fun tokens =>
      (document? tokens).bind fun document =>
        (value? document.reading nestingLimit 0 document.root).map Prod.fst

end Admission.Yaml
