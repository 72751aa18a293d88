import Admission.Json.Fault
import Admission.Number.Estimate
import Admission.Text.Utf8

/-! The words of a JSON text with the bytes at which they begin and end. A number or a string is
read in two ways: for its value, or only to be passed over, which asks less of it. -/

set_option autoImplicit false

namespace Admission.Json

/-- Where reading stops: the fault met by a reader that wants the value, and the one met by a reader
that passes over it. -/
structure Break where
  reading : Fault
  skipping : Fault

def Break.both (reason : Reason) (offset : Nat) : Break :=
  ⟨⟨reason, offset⟩, ⟨reason, offset⟩⟩

inductive Word where
  | openArray
  | closeArray
  | openObject
  | closeObject
  | comma
  | colon
  | null
  | bool (value : Bool)
  | number (value : Except Fault Number)
  | string (value : Except Fault String)
  | brokenString (fault : Break)
  /-- What is no word and begins no string. -/
  | broken (fault : Break)
  | finish

structure Token where
  start : Nat
  stop : Nat
  word : Word

/-- The offset blamed for a token that was looked at but not consumed. -/
def Token.ahead (token : Token) : Nat :=
  match token.word with
  | .finish => token.start
  | _ => token.start + 1

def isDigit (byte : UInt8) : Bool :=
  48 ≤ byte && byte ≤ 57

def isBlank (byte : UInt8) : Bool :=
  byte = 32 || byte = 9 || byte = 10 || byte = 13

def spanDigits (bytes : List UInt8) (met : List UInt8) : List UInt8 × List UInt8 :=
  match bytes with
  | [] => (met.reverse, [])
  | byte :: rest => if isDigit byte then spanDigits rest (byte :: met) else (met.reverse, byte :: rest)

def digitsValue (digits : List UInt8) : Nat :=
  digits.foldl (fun value digit => 10 * value + (digit.toNat - 48)) 0

/-- The parts of a number's text: the digits before the point, those after it, and the exponent. -/
structure NumberText where
  negative : Bool
  whole : List UInt8
  fraction : Option (List UInt8)
  /-- The sign, true for a minus, and the digits. -/
  exponent : Option (Bool × List UInt8)

def exponentLimit : Nat := 2147483647

def exponentOverflow (digits : List UInt8) (value count : Nat) : Option Nat :=
  match digits with
  | [] => none
  | digit :: rest =>
    let value := 10 * value + (digit.toNat - 48)
    if exponentLimit < value then some (count + 1) else exponentOverflow rest value (count + 1)

/-- The digits that go into a significand behind those it has already, as long as it stays within 64
bits, and how many are left over. -/
def takeDigits (digits : List UInt8) (significand : Nat) : Nat × Nat :=
  match digits with
  | [] => (significand, 0)
  | digit :: rest =>
    let longer := 10 * significand + (digit.toNat - 48)
    if longer < 1 <<< 64 then takeDigits rest longer else (significand, rest.length + 1)

/-- The digits of the number that count and the power of ten they count, the exponent in the text
apart. Digits that are left over move the point if they stand before it, and are lost behind it. -/
def NumberText.decimal (text : NumberText) : Binary64.Decimal :=
  let fraction := text.fraction.getD []
  let (whole, above) := takeDigits text.whole 0
  let (significand, lost) := takeDigits fraction whole
  ⟨significand, above - (fraction.length - lost : Nat)⟩

/-- A whole number within 64 bits is an integer, but for `-0`; all else is a binary64, which is
estimated and need not be the nearest one. The number begins its exponent digits at `exponentStart`
and ends at `stop`. -/
def NumberText.value (text : NumberText) (exponentStart stop : Nat) : Except Fault Number :=
  let decimal := text.decimal
  let float (exponent : Int) : Except Fault Number :=
    match Binary64.estimate text.negative decimal.digits (decimal.exponent + exponent) with
    | some value => .ok (.float value)
    | none => .error ⟨.numberOutOfRange, stop⟩
  match text.fraction, text.exponent with
  | none, none =>
    let digits := digitsValue text.whole
    let value : Int := if text.negative then -digits else digits
    if h : IsInteger value then
      if text.negative && digits == 0 then float 0 else .ok (.integer value h)
    else float 0
  | _, none => float 0
  | _, some (minus, exponentDigits) =>
    match exponentOverflow exponentDigits 0 0 with
    | none =>
      let magnitude : Int := digitsValue exponentDigits
      float (if minus then -magnitude else magnitude)
    | some consumed =>
      if decimal.digits = 0 || minus then .ok (.float (Binary64.zero text.negative))
      else .error ⟨.numberOutOfRange, exponentStart + consumed⟩

structure Scanned where
  word : Word
  stop : Nat
  rest : List UInt8

def breakOff (fault : Break) (offset : Nat) : Scanned :=
  ⟨.broken fault, offset, []⟩

def unfinishedNumber (offset : Nat) : Scanned :=
  breakOff ⟨⟨.endInValue, offset⟩, ⟨.invalidNumber, offset⟩⟩ offset

def scanExponent (text : NumberText) (bytes : List UInt8) (offset : Nat) : Scanned :=
  let (minus, bytes, offset) := match bytes with
    | 43 :: rest => (false, rest, offset + 1)
    | 45 :: rest => (true, rest, offset + 1)
    | bytes => (false, bytes, offset)
  match bytes with
  | [] => unfinishedNumber offset
  | byte :: _ =>
    if isDigit byte then
      let (digits, rest) := spanDigits bytes []
      let stop := offset + digits.length
      ⟨.number ({ text with exponent := some (minus, digits) }.value offset stop), stop, rest⟩
    else breakOff (.both .invalidNumber (offset + 1)) offset

def scanAfterWhole (text : NumberText) (bytes : List UInt8) (offset : Nat) : Scanned :=
  match bytes with
  | 46 :: rest =>
    let (digits, rest) := spanDigits rest []
    let offset := offset + 1 + digits.length
    let text := { text with fraction := some digits }
    match digits, rest with
    | [], [] => unfinishedNumber offset
    | [], _ => breakOff (.both .invalidNumber (offset + 1)) offset
    | _, 101 :: rest | _, 69 :: rest => scanExponent text rest (offset + 1)
    | _, rest => ⟨.number (text.value offset offset), offset, rest⟩
  | 101 :: rest | 69 :: rest => scanExponent text rest (offset + 1)
  | bytes => ⟨.number (text.value offset offset), offset, bytes⟩

/-- A number after its sign. No digit may follow a leading zero. -/
def scanNumber (negative : Bool) (bytes : List UInt8) (offset : Nat) : Scanned :=
  match bytes with
  | [] => unfinishedNumber offset
  | 48 :: rest =>
    match rest with
    | byte :: _ =>
      if isDigit byte then breakOff (.both .invalidNumber (offset + 2)) offset
      else scanAfterWhole ⟨negative, [48], none, none⟩ rest (offset + 1)
    | [] => scanAfterWhole ⟨negative, [48], none, none⟩ rest (offset + 1)
  | byte :: _ =>
    if isDigit byte then
      let (digits, rest) := spanDigits bytes []
      scanAfterWhole ⟨negative, digits, none, none⟩ rest (offset + digits.length)
    else breakOff (.both .invalidNumber (offset + 1)) offset

def scanLiteral (word : Word) (letters : List UInt8) (bytes : List UInt8) (offset : Nat) : Scanned :=
  match letters, bytes with
  | [], bytes => ⟨word, offset, bytes⟩
  | _ :: _, [] => breakOff (.both .endInValue offset) offset
  | letter :: letters, byte :: bytes =>
    if byte = letter then scanLiteral word letters bytes (offset + 1)
    else breakOff (.both .expectedLiteral (offset + 1)) offset

def hexDigit? (byte : UInt8) : Option Nat :=
  if isDigit byte then some (byte.toNat - 48)
  else if 97 ≤ byte && byte ≤ 102 then some (byte.toNat - 87)
  else if 65 ≤ byte && byte ≤ 70 then some (byte.toNat - 55)
  else none

def hexUnit? (a b c d : UInt8) : Option Nat :=
  match hexDigit? a, hexDigit? b, hexDigit? c, hexDigit? d with
  | some a, some b, some c, some d => some (((a * 16 + b) * 16 + c) * 16 + d)
  | _, _, _, _ => none

def shortEscape? (byte : UInt8) : Option UInt8 :=
  match byte with
  | 34 => some 34
  | 92 => some 92
  | 47 => some 47
  | 98 => some 8
  | 102 => some 12
  | 110 => some 10
  | 114 => some 13
  | 116 => some 9
  | _ => none

def pushChar (content : ByteArray) (point : Nat) : ByteArray :=
  content ++ (String.singleton (Char.ofNat point)).toUTF8

abbrev Content := Except Fault ByteArray

def Content.fail (content : Content) (reason : Reason) (offset : Nat) : Content :=
  content.bind fun _ => .error ⟨reason, offset⟩

def Content.break (content : Content) (reason : Reason) (offset : Nat) (skipping : Fault) : Scanned :=
  let reading := match content with
    | .ok _ => ⟨reason, offset⟩
    | .error fault => fault
  ⟨.brokenString ⟨reading, skipping⟩, offset, []⟩

/-- The offset in the source of byte `count` of the content; `bytes` is the source of the string. -/
def sourceOffset (bytes : List UInt8) (offset count : Nat) : Nat :=
  match bytes with
  | [] => offset
  | 92 :: 117 :: a :: b :: c :: d :: rest =>
    let unit := (hexUnit? a b c d).getD 0
    -- each half of a surrogate pair stands for two of its four bytes
    let width := if unit < 0x80 then 1 else if unit < 0x800 then 2
      else if 0xd800 ≤ unit && unit ≤ 0xdfff then 2 else 3
    if count < width then offset else sourceOffset rest (offset + 6) (count - width)
  | 92 :: _ :: rest => if count = 0 then offset else sourceOffset rest (offset + 2) (count - 1)
  | _ :: rest => if count = 0 then offset else sourceOffset rest (offset + 1) (count - 1)

def Content.text (content : Content) (source : List UInt8) (start : Nat) : Except Fault String :=
  content.bind fun bytes =>
    match String.fromUTF8? bytes with
    | some text => .ok text
    | none =>
      let valid := Text.validLength bytes.data.toList 0
      .error ⟨.invalidCodePoint, sourceOffset source start valid + 1⟩

/-- The content of a string up to its closing quote. `lead` is the first half of a surrogate pair
when the escape before was one: then only the second half may follow. The string's text begins at
`start` with the bytes `source`. -/
def scanString (source : List UInt8) (start : Nat) (bytes : List UInt8) (offset : Nat)
    (lead : Option Nat) (content : Content) : Scanned :=
  match bytes with
  | [] => content.break .endInString offset ⟨.endInString, offset⟩
  | 34 :: rest =>
    let content := if lead.isSome then content.fail .endOfSurrogate (offset + 1) else content
    ⟨.string (content.text source start), offset + 1, rest⟩
  | [92] => content.break .endInString (offset + 1) ⟨.endInString, offset + 1⟩
  | 92 :: 117 :: a :: b :: c :: d :: rest =>
    let after := offset + 6
    match hexUnit? a b c d with
    | none => content.break .invalidEscape after ⟨.invalidEscape, after⟩
    | some unit =>
      match lead with
      | some high =>
        if 0xdc00 ≤ unit && unit ≤ 0xdfff then
          let point := (high - 0xd800) * 0x400 + (unit - 0xdc00) + 0x10000
          scanString source start rest after none (content.map (pushChar · point))
        else scanString source start rest after none (content.fail .loneSurrogate after)
      | none =>
        if 0xdc00 ≤ unit && unit ≤ 0xdfff then
          scanString source start rest after none (content.fail .loneSurrogate after)
        else if 0xd800 ≤ unit && unit ≤ 0xdbff then
          scanString source start rest after (some unit) content
        else scanString source start rest after none (content.map (pushChar · unit))
  | 92 :: 117 :: rest =>
    let stop := offset + 2 + rest.length
    content.break .endInString stop ⟨.endInString, stop⟩
  | 92 :: byte :: rest =>
    let after := offset + 2
    match shortEscape? byte with
    | some char =>
      if lead.isSome then
        scanString source start rest after none (content.fail .endOfSurrogate after)
      else scanString source start rest after none (content.map (·.push char))
    | none =>
      content.break (if lead.isSome then .endOfSurrogate else .invalidEscape) after
        ⟨.invalidEscape, after⟩
  | byte :: rest =>
    if byte < 32 then
      content.break (if lead.isSome then .endOfSurrogate else .controlCharacter) (offset + 1)
        ⟨.controlCharacter, offset⟩
    else if lead.isSome then
      scanString source start rest (offset + 1) none (content.fail .endOfSurrogate (offset + 1))
    else scanString source start rest (offset + 1) none (content.map (·.push byte))

def scanWord (byte : UInt8) (rest : List UInt8) (offset : Nat) : Scanned :=
  let after := offset + 1
  match byte with
  | 91 => ⟨.openArray, after, rest⟩
  | 93 => ⟨.closeArray, after, rest⟩
  | 123 => ⟨.openObject, after, rest⟩
  | 125 => ⟨.closeObject, after, rest⟩
  | 44 => ⟨.comma, after, rest⟩
  | 58 => ⟨.colon, after, rest⟩
  | 110 => scanLiteral .null [117, 108, 108] rest after
  | 116 => scanLiteral (.bool true) [114, 117, 101] rest after
  | 102 => scanLiteral (.bool false) [97, 108, 115, 101] rest after
  | 34 => scanString rest after rest after none (.ok ByteArray.empty)
  | 45 => scanNumber true rest after
  | byte =>
    if isDigit byte then scanNumber false (byte :: rest) offset
    else breakOff (.both .expectedValue after) offset

/-- The tokens of a text in reverse. The last token is the end of the text or a broken word. -/
def scanTokens (fuel : Nat) (bytes : List UInt8) (offset : Nat) (tokens : List Token) : List Token :=
  match fuel, bytes with
  | 0, _ | _, [] => ⟨offset, offset, .finish⟩ :: tokens
  | fuel + 1, byte :: rest =>
    if isBlank byte then scanTokens fuel rest (offset + 1) tokens
    else
      let scanned := scanWord byte rest offset
      let tokens := ⟨offset, scanned.stop, scanned.word⟩ :: tokens
      match scanned.word with
      | .broken _ | .brokenString _ => tokens
      | _ => scanTokens fuel scanned.rest scanned.stop tokens

def tokens (bytes : List UInt8) : List Token :=
  (scanTokens bytes.length bytes 0 []).reverse

end Admission.Json
