import Admission.Text.Invisible

/-! Text between quotes for messages: what cannot be seen is written as its code point. -/

set_option autoImplicit false

namespace Admission.Text

def hexText (n : Nat) : String :=
  String.ofList (Nat.toDigits 16 n)

def quoteChar (c : Char) : String :=
  match c with
  | '\x00' => "\\0"
  | '\t' => "\\t"
  | '\n' => "\\n"
  | '\r' => "\\r"
  | '"' => "\\\""
  | '\\' => "\\\\"
  | c =>
    if c.toNat < 0x20 || c.toNat == 0x7f || isInvisible c then
      "\\u\x7b" ++ hexText c.toNat ++ "\x7d"
    else c.toString

def quoted (text : String) : String :=
  "\"" ++ text.toList.foldl (fun out c => out ++ quoteChar c) "" ++ "\""

end Admission.Text
