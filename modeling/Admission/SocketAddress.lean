import Admission.Text.Natural

/-! Addresses of sockets: an IP address and a port. -/

set_option autoImplicit false

namespace Admission

inductive SocketAddress where
  | v4 (address : List Nat) (port : Nat)
  /-- Eight groups of 16 bits, the zone they belong to, and a port. -/
  | v6 (groups : List Nat) (zone : Nat) (port : Nat)

namespace SocketAddress

/-! Each reader takes what it needs off the front of a text. -/

def digitsOf (base : Nat) (text : List Char) : List Nat × List Char :=
  match text with
  | [] => ([], [])
  | c :: rest =>
    match Text.digit? base c with
    | none => ([], c :: rest)
    | some digit =>
      let (digits, rest) := digitsOf base rest
      (digit :: digits, rest)

def valueOf (base : Nat) (digits : List Nat) : Nat :=
  digits.foldl (fun value digit => base * value + digit) 0

def number? (base limit : Nat) (text : List Char) : Option (Nat × List Char) :=
  let (digits, rest) := digitsOf base text
  if !digits.isEmpty && valueOf base digits < limit then some (valueOf base digits, rest) else none

/-- A number below 256 without leading zeros. -/
def byte? (text : List Char) : Option (Nat × List Char) :=
  match text with
  | '0' :: c :: _ => if (Text.digit? 10 c).isSome then none else number? 10 256 text
  | _ => number? 10 256 text

def group? (text : List Char) : Option (Nat × List Char) :=
  if 4 < (digitsOf 16 text).1.length then none else number? 16 UInt16.size text

def expect? (c : Char) (text : List Char) : Option (List Char) :=
  match text with
  | first :: rest => if first = c then some rest else none
  | [] => none

def bytes? (text : List Char) : Option (List Nat × List Char) := do
  let (a, text) ← byte? text
  let (b, text) ← byte? (← expect? '.' text)
  let (c, text) ← byte? (← expect? '.' text)
  let (d, text) ← byte? (← expect? '.' text)
  return ([a, b, c, d], text)

/-- Two groups written as the four bytes of an address. -/
def embedded? (text : List Char) : Option (List Nat × List Char) :=
  (bytes? text).bind fun (bytes, rest) =>
    match bytes with
    | [a, b, c, d] => some ([256 * a + b, 256 * c + d], rest)
    | _ => none

def groups (room : Nat) (first : Bool) (text : List Char) : List Nat × Bool × List Char :=
  match room with
  | 0 => ([], false, text)
  | room + 1 =>
    let behind := if first then some text else expect? ':' text
    match if room = 0 then none else behind.bind embedded? with
    | some (pair, rest) => (pair, true, rest)
    | none =>
      match behind.bind group? with
      | none => ([], false, text)
      | some (group, rest) =>
        let (more, bytes, rest) := groups room false rest
        (group :: more, bytes, rest)

/-- Eight groups. Two colons stand for one or more groups of zeros. -/
def eight? (text : List Char) : Option (List Nat × List Char) :=
  let (head, bytes, rest) := groups 8 true text
  if head.length = 8 then some (head, rest)
  else if bytes then none
  else do
    let rest ← expect? ':' (← expect? ':' rest)
    let (tail, _, rest) := groups (7 - head.length) true rest
    return (head ++ List.replicate (8 - head.length - tail.length) 0 ++ tail, rest)

def zone (text : List Char) : Nat × List Char :=
  match (expect? '%' text).bind (number? 10 UInt32.size) with
  | some (zone, rest) => (zone, rest)
  | none => (0, text)

def port? (text : List Char) : Option Nat := do
  let (port, rest) ← number? 10 UInt16.size (← expect? ':' text)
  if rest.isEmpty then some port else none

def readV4? (text : List Char) : Option SocketAddress := do
  let (bytes, rest) ← bytes? text
  return .v4 bytes (← port? rest)

def readV6? (text : List Char) : Option SocketAddress := do
  let (groups, rest) ← eight? (← expect? '[' text)
  let (zone, rest) := zone rest
  return .v6 groups zone (← port? (← expect? ']' rest))

def read? (text : String) : Option SocketAddress :=
  (readV4? text.toList).orElse fun _ => readV6? text.toList

def hexText (n : Nat) : String :=
  String.ofList (Nat.toDigits 16 n)

def groupsText (groups : List Nat) : String :=
  ":".intercalate (groups.map hexText)

def zeros (groups : List Nat) (index : Nat) : Nat × Nat :=
  match groups with
  | [] => (0, 0)
  | group :: rest =>
    let run := ((group :: rest).takeWhile (· = 0)).length
    let (place, length) := zeros rest (index + 1)
    if length ≤ run then (index, run) else (place, length)

/-- Addresses that stand for ones of four bytes are written so; else two or more zeros shrink. -/
def addressText (groups : List Nat) : String :=
  match groups with
  | [0, 0, 0, 0, 0, 0xffff, high, low] =>
    "::ffff:" ++ ".".intercalate
      ([high / 256, high % 256, low / 256, low % 256].map toString)
  | groups =>
    let (place, length) := zeros groups 0
    if 1 < length then
      groupsText (groups.take place) ++ "::" ++ groupsText (groups.drop (place + length))
    else groupsText groups

def text : SocketAddress → String
  | .v4 address port => ".".intercalate (address.map toString) ++ ":" ++ toString port
  | .v6 groups zone port =>
    "[" ++ addressText groups ++ (if zone = 0 then "" else "%" ++ toString zone) ++ "]:"
      ++ toString port

end SocketAddress

end Admission
