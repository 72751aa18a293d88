import Admission.Json.Token

/-! A JSON text as a tree: members in the order of the text, repeated ones included, and every node
with the offsets that a complaint about it names. A text that breaks off gives the tree of what came
before, every open bracket ending in the break. -/

set_option autoImplicit false

namespace Admission.Json

inductive Scalar where
  | null
  | bool (value : Bool)
  | number (value : Except Fault Number)
  | string (value : Except Fault String)

inductive Ending where
  | closed (stop : Nat)
  | broken (fault : Break)

/-- The key of a member and where it ends. `abandoned` is the offset reached when the object is given
up behind it. -/
structure Key where
  text : Except Fault String
  stop : Nat
  abandoned : Nat

inductive Node where
  | scalar (value : Scalar) (start stop : Nat)
  /-- `abandoned` is the offset reached when the list is given up behind its bracket. -/
  | array (start abandoned : Nat) (items : List Node) (ending : Ending)
  | object (start : Nat) (members : List (Key × Node)) (ending : Ending)
  | broken (start : Nat) (fault : Break)

def Node.start : Node → Nat
  | .scalar _ start _ => start
  | .array start _ _ _ => start
  | .object start _ _ => start
  | .broken start _ => start

/-- The break inside a node. Nothing follows it in the text, so the outermost bracket knows it. -/
def Node.break? : Node → Option Break
  | .scalar _ _ _ => none
  | .array _ _ _ (.broken fault) => some fault
  | .object _ _ (.broken fault) => some fault
  | .broken _ fault => some fault
  | _ => none

structure Document where
  root : Node
  trailing : Option Fault

/-- A bracket that is still open, with its content so far in reverse. -/
inductive Frame where
  | array (start abandoned : Nat) (items : List Node)
  | object (start : Nat) (members : List (Key × Node))

inductive Expectation where
  | value
  | firstItem
  | item
  | firstKey
  | key
  | colon (text : Except Fault String) (stop : Nat)
  | memberValue (key : Key)
  /-- A separator, or the end of the innermost bracket. -/
  | separator

def Frame.close (frame : Frame) (ending : Ending) : Node :=
  match frame with
  | .array start abandoned items => .array start abandoned items.reverse ending
  | .object start members => .object start members.reverse ending

def Frame.add (frame : Frame) (key : Option Key) (node : Node) : Frame :=
  match frame, key with
  | .array start abandoned items, _ => .array start abandoned (node :: items)
  | .object start members, some key => .object start ((key, node) :: members)
  | frame, none => frame

/-- An open bracket with the key under which its node goes into the bracket around it. -/
structure Level where
  frame : Frame
  under : Option Key

def closeAll (fault : Break) (node : Node) (under : Option Key) : List Level → Node
  | [] => node
  | level :: levels =>
    closeAll fault ((level.frame.add under node).close (.broken fault)) level.under levels

def breakLevels (fault : Break) (start : Nat) : List Level → Node
  | [] => .broken start fault
  | level :: levels => closeAll fault (level.frame.close (.broken fault)) level.under levels

def Word.scalar? : Word → Option Scalar
  | .null => some .null
  | .bool value => some (.bool value)
  | .number value => some (.number value)
  | .string value => some (.string value)
  | _ => none

def Token.noValue (token : Token) : Break :=
  match token.word with
  | .broken fault | .brokenString fault => fault
  | .finish => .both .endInValue token.start
  | _ => .both .expectedValue token.ahead

def Token.noKey (token : Token) (atEnd atClose : Break) : Break :=
  match token.word with
  | .brokenString fault => fault
  | .finish => atEnd
  | .closeObject => atClose
  | _ => .both .keyNotString token.ahead

/-- The offset reached when a list is abandoned before the given tokens: its end or a first comma
is still consumed. -/
def abandonedList : List Token → Nat
  | [] => 0
  | token :: rest =>
    match token.word, rest with
    | .closeArray, _ => token.stop
    | .comma, next :: _ => next.start
    | _, _ => token.start

def abandonedObject (token : Token) : Nat :=
  match token.word with
  | .closeObject => token.stop
  | _ => token.start

/-- The tree of the tokens that follow, inside the open brackets. `under` is the key of the value
that is read. -/
def build (tokens : List Token) (expected : Expectation) (levels : List Level) : Document :=
  match tokens with
  | [] => ⟨breakLevels (.both .endInValue 0) 0 levels, none⟩
  | token :: rest =>
    -- a node is complete: it is the root, or goes into the innermost bracket
    let place (node : Node) (under : Option Key) (levels : List Level) : Document :=
      match levels with
      | [] =>
        match rest with
        | [] | ⟨_, _, .finish⟩ :: _ => ⟨node, none⟩
        | next :: _ => ⟨node, some ⟨.trailingCharacters, next.ahead⟩⟩
      | level :: levels => build rest .separator (⟨level.frame.add under node, level.under⟩ :: levels)
    let value (under : Option Key) : Document :=
      match token.word with
      | .openArray =>
        build rest .firstItem (⟨.array token.start (abandonedList rest) [], under⟩ :: levels)
      | .openObject =>
        build rest .firstKey (⟨.object token.start [], under⟩ :: levels)
      | word =>
        match word.scalar? with
        | some scalar => place (.scalar scalar token.start token.stop) under levels
        | none => ⟨closeAll token.noValue (.broken token.start token.noValue) under levels, none⟩
    let close (frame : Frame) (under : Option Key) (levels : List Level) : Document :=
      place (frame.close (.closed token.stop)) under levels
    let stop (fault : Break) : Document := ⟨breakLevels fault token.start levels, none⟩
    match expected with
    | .value => value none
    | .firstItem =>
      match token.word, levels with
      | .closeArray, level :: levels => close level.frame level.under levels
      | .finish, _ => stop (.both .endInList token.start)
      | _, _ => value none
    | .item =>
      match token.word with
      | .closeArray => stop ⟨⟨.trailingComma, token.ahead⟩, ⟨.expectedValue, token.ahead⟩⟩
      | .finish => stop (.both .endInValue token.start)
      | _ => value none
    | .firstKey =>
      match token.word, levels with
      | .closeObject, level :: levels => close level.frame level.under levels
      | .string text, _ => build rest (.colon text token.stop) levels
      | _, _ =>
        stop (token.noKey (.both .endInObject token.start) (.both .keyNotString token.ahead))
    | .key =>
      match token.word with
      | .string text => build rest (.colon text token.stop) levels
      | _ =>
        stop (token.noKey ⟨⟨.endInValue, token.start⟩, ⟨.endInObject, token.start⟩⟩
          ⟨⟨.trailingComma, token.ahead⟩, ⟨.keyNotString, token.ahead⟩⟩)
    | .colon text keyStop =>
      let key : Key := ⟨text, keyStop, abandonedObject token⟩
      match token.word with
      | .colon => build rest (.memberValue key) levels
      | .finish =>
        let fault := .both .endInObject token.start
        ⟨closeAll fault (.broken token.start fault) (some key) levels, none⟩
      | _ =>
        let fault := .both .expectedColon token.ahead
        ⟨closeAll fault (.broken token.start fault) (some key) levels, none⟩
    | .memberValue key => value (some key)
    | .separator =>
      match levels with
      | [] => stop (.both .trailingCharacters token.ahead)
      | ⟨.array start abandoned items, under⟩ :: outer =>
        match token.word with
        | .comma => build rest .item levels
        | .closeArray => close (.array start abandoned items) under outer
        | .finish => stop (.both .endInList token.start)
        | _ => stop (.both .expectedListSeparator token.ahead)
      | ⟨.object start members, under⟩ :: outer =>
        match token.word with
        | .comma => build rest .key levels
        | .closeObject => close (.object start members) under outer
        | .finish => stop (.both .endInObject token.start)
        | _ => stop (.both .expectedObjectSeparator token.ahead)
termination_by structural tokens

def document (bytes : List UInt8) : Document :=
  build (tokens bytes) .value []

end Admission.Json
