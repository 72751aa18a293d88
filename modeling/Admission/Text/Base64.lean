/-! Bytes as base64 text with padding. Decoding accepts exactly what encoding produces. -/

set_option autoImplicit false

namespace Admission.Base64

def symbol (bits : Nat) : Char :=
  if bits < 26 then Char.ofNat (65 + bits)
  else if bits < 52 then Char.ofNat (71 + bits)
  else if bits < 62 then Char.ofNat (bits - 4)
  else if bits = 62 then '+'
  else '/'

def value? (symbol : UInt8) : Option Nat :=
  if 65 ≤ symbol && symbol ≤ 90 then some (symbol.toNat - 65)
  else if 97 ≤ symbol && symbol ≤ 122 then some (symbol.toNat - 71)
  else if 48 ≤ symbol && symbol ≤ 57 then some (symbol.toNat + 4)
  else if symbol = 43 then some 62
  else if symbol = 47 then some 63
  else none

def write (bytes : List UInt8) (out : String) : String :=
  match bytes with
  | [] => out
  | [a] =>
    let bits := a.toNat * 16
    (((out.push (symbol (bits / 64))).push (symbol (bits % 64))).push '=').push '='
  | [a, b] =>
    let bits := (a.toNat * 256 + b.toNat) * 4
    (((out.push (symbol (bits / 4096))).push (symbol (bits / 64 % 64))).push
      (symbol (bits % 64))).push '='
  | a :: b :: c :: rest =>
    let bits := (a.toNat * 256 + b.toNat) * 256 + c.toNat
    write rest ((((out.push (symbol (bits / 262144))).push (symbol (bits / 4096 % 64))).push
      (symbol (bits / 64 % 64))).push (symbol (bits % 64)))

def encode (bytes : List UInt8) : String :=
  write bytes ""

inductive Error where
  | invalidSymbol (symbol : UInt8) (offset : Nat)
  /-- The bits of a last symbol that belong to no byte are not all zero. -/
  | invalidLastSymbol (symbol : UInt8) (offset : Nat)
  | invalidLength (length : Nat)
  | invalidPadding

def Error.message : Error → String
  | .invalidSymbol symbol offset =>
    "Invalid symbol " ++ toString symbol.toNat ++ ", offset " ++ toString offset ++ "."
  | .invalidLastSymbol symbol offset =>
    "Invalid last symbol " ++ toString symbol.toNat ++ ", offset " ++ toString offset ++ "."
  | .invalidLength length => "Invalid input length: " ++ toString length
  | .invalidPadding => "Invalid padding"

/-- The symbols of a last group of at most four, their offsets beginning at `offset`. Padding may
follow two symbols or three; `firstPad` is where it began. -/
def lastSymbols (group : List UInt8) (offset place : Nat) (firstPad : Option Nat) (pads : Nat)
    (symbols : List (UInt8 × Nat)) : Except Error (List (UInt8 × Nat) × Nat) :=
  match group with
  | [] => .ok (symbols.reverse, pads)
  | byte :: group =>
    if byte = 61 then
      if place < 2 then .error (.invalidSymbol byte (offset + place))
      else lastSymbols group offset (place + 1) (some (firstPad.getD (offset + place))) (pads + 1)
        symbols
    else
      match firstPad with
      | some pad => .error (.invalidSymbol 61 pad)
      | none =>
        match value? byte with
        | none => .error (.invalidSymbol byte (offset + place))
        | some value =>
          lastSymbols group offset (place + 1) none pads ((byte, value) :: symbols)

def lastBytes (symbols : List (UInt8 × Nat)) (offset : Nat) : Except Error (List UInt8) :=
  match symbols with
  | [(_, a), (last, b)] =>
    let bits := a * 64 + b
    if bits % 16 = 0 then .ok [UInt8.ofNat (bits / 16)]
    else .error (.invalidLastSymbol last (offset + 1))
  | [(_, a), (_, b), (last, c)] =>
    let bits := (a * 64 + b) * 64 + c
    if bits % 4 = 0 then .ok [UInt8.ofNat (bits / 1024), UInt8.ofNat (bits / 4)]
    else .error (.invalidLastSymbol last (offset + 2))
  | [(_, a), (_, b), (_, c), (_, d)] =>
    let bits := ((a * 64 + b) * 64 + c) * 64 + d
    .ok [UInt8.ofNat (bits / 65536), UInt8.ofNat (bits / 256), UInt8.ofNat bits]
  | _ => .ok []

def decodeLast (group : List UInt8) (offset : Nat) : Except Error (List UInt8) :=
  match lastSymbols group offset 0 none 0 [] with
  | .error error => .error error
  | .ok (symbols, pads) =>
    if symbols.length < 2 && !(offset == 0 && group.isEmpty) then
      .error (.invalidLength (offset + symbols.length))
    else if (symbols.length + pads) % 4 ≠ 0 then .error .invalidPadding
    else lastBytes symbols offset

/-- Groups of four symbols, the last one being allowed to be padded. The bytes decoded so far are in
reverse. -/
def decodeGroups (symbols : List UInt8) (offset : Nat) (read : List UInt8) :
    Except Error (List UInt8) :=
  match symbols with
  | a :: b :: c :: d :: e :: rest =>
    match value? a, value? b, value? c, value? d with
    | some w, some x, some y, some z =>
      let bits := ((w * 64 + x) * 64 + y) * 64 + z
      decodeGroups (e :: rest) (offset + 4)
        (UInt8.ofNat bits :: UInt8.ofNat (bits / 256) :: UInt8.ofNat (bits / 65536) :: read)
    | none, _, _, _ => .error (.invalidSymbol a offset)
    | _, none, _, _ => .error (.invalidSymbol b (offset + 1))
    | _, _, none, _ => .error (.invalidSymbol c (offset + 2))
    | _, _, _, none => .error (.invalidSymbol d (offset + 3))
  | group => (decodeLast group offset).map (read.reverse ++ ·)

/-- A single symbol left over at the end is looked at first. -/
def decode (symbols : List UInt8) : Except Error (List UInt8) :=
  match symbols.length % 4 == 1, symbols.getLast? with
  | true, some last =>
    if last ≠ 61 && (value? last).isNone then
      .error (.invalidSymbol last (symbols.length - 1))
    else decodeGroups symbols 0 []
  | _, _ => decodeGroups symbols 0 []

end Admission.Base64
