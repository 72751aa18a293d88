import Admission.Json.Printer
import Admission.Text.Quoted

/-! Why a text is not JSON, or a JSON value not of the wanted shape. -/

set_option autoImplicit false

namespace Admission.Json

inductive Found where
  | null
  | bool (value : Bool)
  | number (value : Number)
  | string (value : String)
  | sequence
  | map

def found : Json → Found
  | .null => .null
  | .bool value => .bool value
  | .number value => .number value
  | .string value => .string value
  | .array _ => .sequence
  | .object _ => .map

def Found.text : Found → String
  | .null => "null"
  | .bool value => "boolean `" ++ (if value then "true" else "false") ++ "`"
  | .number (.integer value _) => "integer `" ++ toString value ++ "`"
  | .number (.float value) => "floating point `" ++ value.text floatNotation ++ "`"
  | .string value => "string " ++ Text.quoted value
  | .sequence => "sequence"
  | .map => "map"

inductive Mismatch where
  | invalidType (found : Found) (expected : String)
  | invalidValue (found : Found) (expected : String)
  | invalidLength (length : Nat) (expected : String)
  | missingField (name : String)
  | duplicateField (name : String)
  | unknownVariant (name : String) (expected : List String)
  /-- A string that is not of the format its place asks for. -/
  | malformed (reason : String)

def alternatives (names : List String) : String :=
  match names with
  | [] => "there are no variants"
  | [a] => "expected `" ++ a ++ "`"
  | [a, b] => "expected `" ++ a ++ "` or `" ++ b ++ "`"
  | names => "expected one of " ++ ", ".intercalate (names.map fun name => "`" ++ name ++ "`")

def Mismatch.message : Mismatch → String
  | .invalidType found expected => "invalid type: " ++ found.text ++ ", expected " ++ expected
  | .invalidValue found expected => "invalid value: " ++ found.text ++ ", expected " ++ expected
  | .invalidLength length expected =>
    "invalid length " ++ toString length ++ ", expected " ++ expected
  | .missingField name => "missing field `" ++ name ++ "`"
  | .duplicateField name => "duplicate field `" ++ name ++ "`"
  | .unknownVariant name expected =>
    "unknown variant `" ++ name ++ "`, " ++ alternatives expected
  | .malformed reason => reason

inductive Reason where
  | endInList
  | endInObject
  | endInString
  | endInValue
  | expectedColon
  | expectedListSeparator
  | expectedObjectSeparator
  | expectedLiteral
  | expectedValue
  | invalidEscape
  | invalidNumber
  | numberOutOfRange
  | invalidCodePoint
  | controlCharacter
  | keyNotString
  | loneSurrogate
  | trailingComma
  | trailingCharacters
  | endOfSurrogate
  | recursionLimit
  | mismatch (cause : Mismatch)

def Reason.message : Reason → String
  | .endInList => "EOF while parsing a list"
  | .endInObject => "EOF while parsing an object"
  | .endInString => "EOF while parsing a string"
  | .endInValue => "EOF while parsing a value"
  | .expectedColon => "expected `:`"
  | .expectedListSeparator => "expected `,` or `]`"
  | .expectedObjectSeparator => "expected `,` or `\x7d`"
  | .expectedLiteral => "expected ident"
  | .expectedValue => "expected value"
  | .invalidEscape => "invalid escape"
  | .invalidNumber => "invalid number"
  | .numberOutOfRange => "number out of range"
  | .invalidCodePoint => "invalid unicode code point"
  | .controlCharacter => "control character (\\u0000-\\u001F) found while parsing a string"
  | .keyNotString => "key must be a string"
  | .loneSurrogate => "lone leading surrogate in hex escape"
  | .trailingComma => "trailing comma"
  | .trailingCharacters => "trailing characters"
  | .endOfSurrogate => "unexpected end of hex escape"
  | .recursionLimit => "recursion limit exceeded"
  | .mismatch cause => cause.message

/-- A reason together with the number of bytes that were consumed when it arose. -/
structure Fault where
  reason : Reason
  offset : Nat

/-- A place in a text: the line from one, the bytes of that line before the place. -/
structure Position where
  line : Nat
  column : Nat
  deriving DecidableEq

def Position.advance (place : Position) (bytes : List UInt8) (offset : Nat) : Position :=
  match bytes, offset with
  | byte :: bytes, offset + 1 =>
    advance (if byte = 10 then ⟨place.line + 1, 0⟩ else ⟨place.line, place.column + 1⟩) bytes offset
  | _, _ => place

structure Error where
  reason : Reason
  position : Position

def Fault.locate (fault : Fault) (bytes : List UInt8) : Error :=
  ⟨fault.reason, Position.advance ⟨1, 0⟩ bytes fault.offset⟩

def Error.message (error : Error) : String :=
  error.reason.message ++ " at line " ++ toString error.position.line ++
    " column " ++ toString error.position.column

end Admission.Json
