import Admission.Json.Reader

/-! Shapes of JSON texts. A text is read against a shape in the order of the text, so that of two
faults the first one is reported, be it in the syntax or in the shape. -/

set_option autoImplicit false

namespace Admission.Json

inductive Presence where
  /-- Left out when missing or null. -/
  | optional
  /-- Takes this value when missing; null is not accepted. -/
  | defaulted (value : Json)
  | required

inductive RecordForm where
  /-- Members may not repeat, and a list of the members in their order is accepted as well. The list
  may end early where `short` says so or the missing member has a default. -/
  | strict (short : Bool)
  /-- The last of repeated members counts, and a list is not accepted. -/
  | lenient

inductive Shape where
  | any
  | string
  | boolean
  | uint16
  | choice (names : List String)
  | list (item : Shape)
  | map (value : Shape)
  | record (name : String) (form : RecordForm) (slots : List (String × Presence × Shape))

abbrev Slot := String × Presence × Shape

def blame (cause : Mismatch) (offset : Nat) : Fault :=
  ⟨.mismatch cause, offset⟩

/-- The fault of a node that is not of the expected kind. A bracket is blamed before it opens, a
scalar once it is read. -/
def Node.unexpected (node : Node) (expected : String) : Fault :=
  match node with
  | .scalar value _ stop =>
    match value.value with
    | .ok value => blame (.invalidType value.json.found expected) stop
    | .error fault => fault
  | .array start _ _ _ => blame (.invalidType .sequence expected) start
  | .object start _ _ => blame (.invalidType .map expected) start
  | .broken _ fault => fault.reading

def Node.skip (node : Node) : Except Fault Unit :=
  match node.break? with
  | none => .ok ()
  | some fault => .error fault.skipping

def Node.isNull : Node → Bool
  | .scalar .null _ _ => true
  | _ => false

def Node.text (node : Node) : Except Fault Json :=
  match node with
  | .scalar (.string value) _ _ => value.map .string
  | node => .error (node.unexpected "a string")

def Node.boolean (node : Node) : Except Fault Json :=
  match node with
  | .scalar (.bool value) _ _ => .ok (.bool value)
  | node => .error (node.unexpected "a boolean")

def Node.uint16 (node : Node) : Except Fault Json :=
  match node with
  | .scalar (.number (.ok (.integer value range))) _ stop =>
    if 0 ≤ value ∧ value < 65536 then .ok (.number (.integer value range))
    else .error (blame (.invalidValue (.number (.integer value range)) "u16") stop)
  | node => .error (node.unexpected "u16")

def chosen (names : List String) (text : Except Fault String) (stop : Nat) : Except Fault Json :=
  text.bind fun text =>
    if names.contains text then .ok (.string text)
    else .error (blame (.unknownVariant text names) stop)

def Node.choice (node : Node) (names : List String) (room : Nat) : Except Fault Json :=
  match node with
  | .scalar (.string text) _ stop => chosen names text stop
  | .object start [(key, value)] (.closed _) =>
    if room = 0 then .error ⟨.recursionLimit, start + 1⟩
    else (chosen names key.text key.stop).bind fun name =>
      if value.isNull then .ok name else .error (value.unexpected "unit")
  | .broken _ fault => .error fault.reading
  | node => .error ⟨.expectedValue, node.start + 1⟩

def Fault.surplus (fault : Fault) : Fault :=
  match fault.reason with
  | .expectedListSeparator | .endInValue => { fault with reason := .trailingCharacters }
  | _ => fault

def Ending.check (ending : Ending) : Except Fault Nat :=
  match ending with
  | .closed stop => .ok stop
  | .broken fault => .error fault.reading

/-- The members of a record in their order; `met` are the ones that were read, null as none. -/
def assemble (slots : List Slot) (met : List (String × Option Json)) (stop : Nat) :
    Except Fault (List (String × Json)) :=
  match slots with
  | [] => .ok []
  | (name, presence, _) :: slots =>
    match met.lookup name, presence with
    | some (some value), _ => (assemble slots met stop).map ((name, value) :: ·)
    | some none, _ | none, .optional => assemble slots met stop
    | none, .defaulted value => (assemble slots met stop).map ((name, value) :: ·)
    | none, .required => .error (blame (.missingField name) stop)

def assembleShort (slots : List Slot) (short : Bool) (index : Nat) (expected : String) (stop : Nat) :
    Except Fault (List (String × Json)) :=
  match slots with
  | [] => .ok []
  | (name, presence, _) :: slots =>
    match presence, short with
    | .defaulted value, _ =>
      (assembleShort slots short (index + 1) expected stop).map ((name, value) :: ·)
    | .optional, true => assembleShort slots short (index + 1) expected stop
    | _, _ => .error (blame (.invalidLength index expected) stop)

def Presence.acceptsNull : Presence → Bool
  | .optional => true
  | _ => false

mutual

/-- The value of a node of the given shape inside which `room` more brackets may open. Records list
their members in the order of the shape. -/
def Node.read (node : Node) (shape : Shape) (room : Nat) : Except Fault Json :=
  match shape with
  | .any => (node.value room).map Tree.json
  | .string => node.text
  | .boolean => node.boolean
  | .uint16 => node.uint16
  | .choice names => node.choice names room
  | .list item =>
    match node with
    | .array start _ items ending =>
      match room with
      | 0 => .error ⟨.recursionLimit, start + 1⟩
      | room + 1 => (readItems items item room ending []).map .array
    | node => .error (node.unexpected "a sequence")
  | .map value =>
    match node with
    | .object start members ending =>
      match room with
      | 0 => .error ⟨.recursionLimit, start + 1⟩
      | room + 1 =>
        (readEntries members value room ending []).map fun entries =>
          .object (Entries.sort entries)
    | node => .error (node.unexpected "a map")
  | .record name (.strict short) slots =>
    match node with
    | .object start members ending =>
      match room with
      | 0 => .error ⟨.recursionLimit, start + 1⟩
      | room + 1 =>
        match readMembers members slots true room [] with
        | .ok met =>
          ending.check.bind fun stop => (assemble slots met stop).map .object
        | .error fault => .error fault
    | .array start _ items ending =>
      match room with
      | 0 => .error ⟨.recursionLimit, start + 1⟩
      | room + 1 =>
        let expected := "struct " ++ name ++ " with " ++ toString slots.length ++ " elements"
        (readPositions items slots short 0 expected room ending).map .object
    | node => .error (node.unexpected ("struct " ++ name))
  | .record name .lenient slots =>
    match node with
    | .object start members ending =>
      match room with
      | 0 => .error ⟨.recursionLimit, start + 1⟩
      | room + 1 =>
        match readMembers members slots false room [] with
        | .ok met =>
          ending.check.bind fun stop => (assemble slots met stop).map .object
        | .error fault => .error fault
    | .array start abandoned _ _ =>
      if room = 0 then .error ⟨.recursionLimit, start + 1⟩
      else .error (blame (.invalidType .sequence name) abandoned)
    | node => .error (node.unexpected name)

def readItems (items : List Node) (shape : Shape) (room : Nat) (ending : Ending)
    (read : List Json) : Except Fault (List Json) :=
  match items with
  | [] => ending.check.map fun _ => read.reverse
  | item :: items =>
    match item.read shape room with
    | .ok value => readItems items shape room ending (value :: read)
    | .error fault => .error fault

def readEntries (members : List (Key × Node)) (shape : Shape) (room : Nat) (ending : Ending)
    (read : List (String × Json)) : Except Fault (List (String × Json)) :=
  match members with
  | [] => ending.check.map fun _ => read.reverse
  | (key, value) :: members =>
    match key.text with
    | .error fault => .error fault
    | .ok text =>
      match value.read shape room with
      | .ok value => readEntries members shape room ending ((text, value) :: read)
      | .error fault => .error fault

def readMembers (members : List (Key × Node)) (slots : List Slot) (unique : Bool) (room : Nat)
    (met : List (String × Option Json)) : Except Fault (List (String × Option Json)) :=
  match members with
  | [] => .ok met
  | (key, value) :: members =>
    match key.text with
    | .error fault => .error fault
    | .ok name =>
      match slots.lookup name with
      | none =>
        match value.skip with
        | .ok _ => readMembers members slots unique room met
        | .error fault => .error fault
      | some (presence, shape) =>
        if unique && (met.lookup name).isSome then
          .error (blame (.duplicateField name) key.abandoned)
        else if presence.acceptsNull && value.isNull then
          readMembers members slots unique room ((name, none) :: met)
        else
          match value.read shape room with
          | .ok value => readMembers members slots unique room ((name, some value) :: met)
          | .error fault => .error fault

def readPositions (items : List Node) (slots : List Slot) (short : Bool) (index : Nat)
    (expected : String) (room : Nat) (ending : Ending) : Except Fault (List (String × Json)) :=
  match items, slots with
  | [], [] => (ending.check.mapError Fault.surplus).map fun _ => []
  | item :: _, [] => .error ⟨.trailingCharacters, item.start + 1⟩
  | [], slot :: slots =>
    ending.check.bind fun stop => assembleShort (slot :: slots) short index expected stop
  | item :: items, (name, presence, shape) :: slots =>
    if presence.acceptsNull && item.isNull then
      readPositions items slots short (index + 1) expected room ending
    else
      match item.read shape room with
      | .ok value =>
        (readPositions items slots short (index + 1) expected room ending).map ((name, value) :: ·)
      | .error fault => .error fault

end

def parseAs (shape : Shape) (bytes : List UInt8) : Except Error Json :=
  ((document bytes).readWith fun node => node.read shape nestingLimit).mapError (·.locate bytes)

end Admission.Json
