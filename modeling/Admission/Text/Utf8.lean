/-! UTF-8 as far as core does not have it: where a byte sequence stops being valid. -/

set_option autoImplicit false

namespace Admission.Text

def isContinuation (byte : UInt8) : Bool :=
  0x80 ≤ byte && byte ≤ 0xbf

def validLength (bytes : List UInt8) (count : Nat) : Nat :=
  match bytes with
  | [] => count
  | a :: rest =>
    if a < 0x80 then validLength rest (count + 1)
    else match rest with
      | [] => count
      | b :: rest =>
        if 0xc2 ≤ a && a ≤ 0xdf then
          if isContinuation b then validLength rest (count + 2) else count
        else match rest with
          | [] => count
          | c :: rest =>
            if 0xe0 ≤ a && a ≤ 0xef then
              let low : UInt8 := if a = 0xe0 then 0xa0 else 0x80
              let high : UInt8 := if a = 0xed then 0x9f else 0xbf
              if low ≤ b && b ≤ high && isContinuation c then validLength rest (count + 3)
              else count
            else match rest with
              | [] => count
              | d :: rest =>
                let low : UInt8 := if a = 0xf0 then 0x90 else 0x80
                let high : UInt8 := if a = 0xf4 then 0x8f else 0xbf
                if 0xf0 ≤ a && a ≤ 0xf4 && low ≤ b && b ≤ high && isContinuation c
                    && isContinuation d then
                  validLength rest (count + 4)
                else count

def utf8Bytes (text : String) : List UInt8 :=
  text.toUTF8.data.toList

def ofUtf8? (bytes : List UInt8) : Option String :=
  String.fromUTF8? ⟨bytes.toArray⟩

/-- How many bytes at the front of a list, of which none begins a character there, belong together:
the beginning of a character that breaks off, or else one byte. -/
def brokenLength (bytes : List UInt8) : Nat :=
  match bytes with
  | [] => 0
  | [_] => 1
  | a :: b :: rest =>
    let low : UInt8 := if a = 0xe0 then 0xa0 else if a = 0xf0 then 0x90 else 0x80
    let high : UInt8 := if a = 0xed then 0x9f else if a = 0xf4 then 0x8f else 0xbf
    let more : Option Nat :=
      if 0xe0 ≤ a && a ≤ 0xef then some 0 else if 0xf0 ≤ a && a ≤ 0xf4 then some 1 else none
    match more with
    | none => 1
    | some more =>
      if low ≤ b && b ≤ high then 2 + ((rest.take more).takeWhile isContinuation).length else 1

def ofUtf8Lossy (bytes : List UInt8) : String :=
  let rec read (fuel : Nat) (bytes : List UInt8) (text : String) : String :=
    let count := validLength bytes 0
    let text := text ++ (ofUtf8? (bytes.take count)).getD ""
    match fuel, bytes.drop count with
    | 0, _ | _, [] => text
    | fuel + 1, rest => read fuel (rest.drop (brokenLength rest)) (text ++ "\ufffd")
  read bytes.length bytes ""

end Admission.Text
