import Admission.Yaml.Token

/-! The tree of a YAML document. An alias stays a reference to the node that it names. -/

set_option autoImplicit false

namespace Admission.Yaml

inductive Tree where
  | alias (number : Nat)
  /-- The tag is resolved, and none for a scalar that is to be read by its text. -/
  | scalar (tag : Option String) (style : ScalarStyle) (text : String)
  | sequence (tag : Option String) (items : List Tree)
  | mapping (tag : Option String) (entries : List (Tree × Tree))
  deriving Inhabited

/-- What is known while a document is read: the stems of its tag handles, and its anchors. An anchor
has a number, under which its node is found; `events` counts the scalars, aliases and ends of
collections met. -/
structure Reading where
  handles : List (String × String)
  anchors : List (String × Nat) := []
  nodes : List (Nat × Tree) := []
  events : Nat := 0

def Reading.count (reading : Reading) (events : Nat) : Reading :=
  { reading with events := reading.events + events }

/-- Give a number to an anchor: how many names there are before it gets one. -/
def Reading.declare (reading : Reading) (name : String) : Nat × Reading :=
  let number := reading.anchors.length
  let others := reading.anchors.filter (·.1 ≠ name)
  (number, { reading with anchors := (name, number) :: others })

/-- The node of a number is the last one it was given to. -/
def Reading.define (reading : Reading) (number : Nat) (tree : Tree) : Reading :=
  { reading with nodes := (number, tree) :: reading.nodes.filter (·.1 ≠ number) }

def Reading.tagText? (reading : Reading) (tag : Tag) : Option String :=
  if tag.handle.isEmpty then some tag.suffix
  else (reading.handles.lookup tag.handle).map (· ++ tag.suffix)

structure Parsed where
  tree : Tree
  rest : List Token
  reading : Reading

def emptyScalar : Tree :=
  .scalar none .plain ""

def properties (tokens : List Token) : Option String × Option Tag × List Token :=
  match tokens with
  | .anchor name :: .tag tag :: rest => (some name, some tag, rest)
  | .tag tag :: .anchor name :: rest => (some name, some tag, rest)
  | .anchor name :: rest => (some name, none, rest)
  | .tag tag :: rest => (none, some tag, rest)
  | rest => (none, none, rest)

inductive Collection where
  | blockSequence
  /-- A sequence in a block mapping whose entries are not indented. -/
  | indentless
  | blockMapping
  | flowSequence
  | flowMapping

mutual

/-- The node that comes next. `block` admits block collections, `indentless` also a sequence that is
indented no deeper than the mapping around it. -/
def parseNode (fuel : Nat) (block indentless : Bool) (tokens : List Token) (reading : Reading) :
    Option Parsed :=
  match fuel with
  | 0 => none
  | fuel + 1 =>
    match tokens with
    | .alias name :: rest =>
      (reading.anchors.lookup name).map fun number => ⟨.alias number, rest, reading.count 1⟩
    | tokens =>
      let (anchor?, tag?, tokens) := properties tokens
      let tag : Option (Option String) := match tag? with
        | none => some none
        | some tag => (reading.tagText? tag).map some
      tag.bind fun tag =>
        let (number?, reading) := match anchor? with
          | none => (none, reading)
          | some name =>
            let (number, reading) := reading.declare name
            (some number, reading)
        (parseContent fuel block indentless tag anchor?.isSome tokens reading).map fun parsed =>
          match number? with
          | none => parsed
          | some number => { parsed with reading := parsed.reading.define number parsed.tree }

def parseContent (fuel : Nat) (block indentless : Bool) (tag : Option String) (anchored : Bool)
    (tokens : List Token) (reading : Reading) : Option Parsed :=
  match fuel with
  | 0 => none
  | fuel + 1 =>
    let sequence (kind : Collection) (rest : List Token) : Option Parsed :=
      (parseItems fuel kind true rest reading []).map fun (items, rest, reading) =>
        ⟨.sequence tag items, rest, reading.count 2⟩
    let mapping (kind : Collection) (rest : List Token) : Option Parsed :=
      (parseEntries fuel kind true rest reading []).map fun (entries, rest, reading) =>
        ⟨.mapping tag entries, rest, reading.count 2⟩
    match tokens with
    | .blockEntry :: _ => if indentless then sequence .indentless tokens else
      if anchored || tag.isSome then some ⟨.scalar tag .plain "", tokens, reading.count 1⟩ else none
    | .scalar style text :: rest =>
      let tag := if tag = some "!" then none else tag
      some ⟨.scalar tag style text, rest, reading.count 1⟩
    | .flowSequenceStart :: rest => sequence .flowSequence rest
    | .flowMappingStart :: rest => mapping .flowMapping rest
    | tokens =>
      match block, tokens with
      | true, .blockSequenceStart :: rest => sequence .blockSequence rest
      | true, .blockMappingStart :: rest => mapping .blockMapping rest
      | _, tokens =>
        if anchored || tag.isSome then some ⟨.scalar tag .plain "", tokens, reading.count 1⟩
        else none

def parseItems (fuel : Nat) (kind : Collection) (first : Bool) (tokens : List Token)
    (reading : Reading) (items : List Tree) : Option (List Tree × List Token × Reading) :=
  match fuel with
  | 0 => none
  | fuel + 1 =>
    let node (tokens : List Token) (block : Bool) : Option (List Tree × List Token × Reading) :=
      (parseNode fuel block false tokens reading).bind fun parsed =>
        parseItems fuel kind false parsed.rest parsed.reading (parsed.tree :: items)
    let empty (tokens : List Token) : Option (List Tree × List Token × Reading) :=
      parseItems fuel kind false tokens (reading.count 1) (emptyScalar :: items)
    match kind with
    | .blockSequence =>
      match tokens with
      | .blockEntry :: rest =>
        match rest with
        | .blockEntry :: _ | .blockEnd :: _ => empty rest
        | _ => node rest true
      | .blockEnd :: rest => some (items.reverse, rest, reading)
      | _ => none
    | .indentless =>
      match tokens with
      | .blockEntry :: rest =>
        match rest with
        | .blockEntry :: _ | .key :: _ | .value :: _ | .blockEnd :: _ => empty rest
        | _ => node rest true
      | _ => some (items.reverse, tokens, reading)
    | _ =>
      match tokens with
      | .flowSequenceEnd :: rest => some (items.reverse, rest, reading)
      | tokens =>
        let entry? : Option (List Token) :=
          if first then some tokens else match tokens with
            | .flowEntry :: rest => some rest
            | _ => none
        match entry? with
        | none => none
        | some (.flowSequenceEnd :: rest) => some (items.reverse, rest, reading)
        | some (.key :: rest) =>
          (parsePair fuel rest reading).bind fun parsed =>
            parseItems fuel kind false parsed.rest parsed.reading (parsed.tree :: items)
        | some tokens => node tokens false

/-- A single pair that is an item of a flow sequence, after its key indicator. -/
def parsePair (fuel : Nat) (tokens : List Token) (reading : Reading) : Option Parsed :=
  match fuel with
  | 0 => none
  | fuel + 1 =>
    let key? : Option Parsed := match tokens with
      | .value :: rest | .flowEntry :: rest | .flowSequenceEnd :: rest =>
        some ⟨emptyScalar, rest, reading.count 1⟩
      | tokens => parseNode fuel false false tokens reading
    key?.bind fun key =>
      let value? : Option Parsed := match key.rest with
        | .value :: rest =>
          match rest with
          | .flowEntry :: _ | .flowSequenceEnd :: _ =>
            some ⟨emptyScalar, rest, key.reading.count 1⟩
          | _ => parseNode fuel false false rest key.reading
        | rest => some ⟨emptyScalar, rest, key.reading.count 1⟩
      value?.map fun value =>
        ⟨.mapping none [(key.tree, value.tree)], value.rest, value.reading.count 2⟩

def parseEntries (fuel : Nat) (kind : Collection) (first : Bool) (tokens : List Token)
    (reading : Reading) (entries : List (Tree × Tree)) :
    Option (List (Tree × Tree) × List Token × Reading) :=
  match fuel with
  | 0 => none
  | fuel + 1 =>
    let add (key : Tree) (value : Parsed) : Option (List (Tree × Tree) × List Token × Reading) :=
      parseEntries fuel kind false value.rest value.reading ((key, value.tree) :: entries)
    let none? (tokens : List Token) (reading : Reading) : Option Parsed :=
      some ⟨emptyScalar, tokens, reading.count 1⟩
    match kind with
    | .flowMapping =>
      match tokens with
      | .flowMappingEnd :: rest => some (entries.reverse, rest, reading)
      | tokens =>
        let entry? : Option (List Token) :=
          if first then some tokens else match tokens with
            | .flowEntry :: rest => some rest
            | _ => none
        match entry? with
        | none => none
        | some (.flowMappingEnd :: rest) => some (entries.reverse, rest, reading)
        | some (.key :: rest) =>
          let key? := match rest with
            | .value :: _ | .flowEntry :: _ | .flowMappingEnd :: _ => none? rest reading
            | _ => parseNode fuel false false rest reading
          key?.bind fun key =>
            let value? := match key.rest with
              | .value :: rest =>
                match rest with
                | .flowEntry :: _ | .flowMappingEnd :: _ => none? rest key.reading
                | _ => parseNode fuel false false rest key.reading
              | rest => none? rest key.reading
            value?.bind (add key.tree)
        | some tokens =>
          (parseNode fuel false false tokens reading).bind fun key =>
            (none? key.rest key.reading).bind (add key.tree)
    | _ =>
      match tokens with
      | .key :: rest =>
        let key? := match rest with
          | .key :: _ | .value :: _ | .blockEnd :: _ => none? rest reading
          | _ => parseNode fuel true true rest reading
        key?.bind fun key =>
          let value? := match key.rest with
            | .value :: rest =>
              match rest with
              | .key :: _ | .value :: _ | .blockEnd :: _ => none? rest key.reading
              | _ => parseNode fuel true true rest key.reading
            | rest => none? rest key.reading
          value?.bind (add key.tree)
      | .blockEnd :: rest => some (entries.reverse, rest, reading)
      | _ => none

end

/-- The directives of a document in reverse. At most one version, which must be 1.1 or 1.2, and at
most one stem for each tag handle. -/
def directives? (tokens : List Token) (version : Bool) (handles : List (String × String)) :
    Option (Bool × List (String × String) × List Token) :=
  match tokens with
  | .directive (.version major minor) :: rest =>
    if version || major ≠ 1 || (minor ≠ 1 && minor ≠ 2) then none else directives? rest true handles
  | .directive (.tag handle stem) :: rest =>
    if (handles.lookup handle).isSome then none
    else directives? rest version ((handle, stem) :: handles)
  | tokens => some (version || !handles.isEmpty, handles, tokens)

def standardHandles : List (String × String) :=
  [("!", "!"), ("!!", "tag:yaml.org,2002:")]

def isDocumentEnd : Token → Bool
  | .documentEnd => true
  | _ => false

structure Document where
  root : Tree
  reading : Reading

/-- The root of a document behind its start. A document that was started explicitly may be empty. -/
def root? (explicit : Bool) (tokens : List Token) (reading : Reading) : Option Parsed :=
  let isEmpty := match tokens with
    | .directive _ :: _ | .documentStart :: _ | .documentEnd :: _ | .finish :: _ => true
    | _ => false
  if isEmpty then (if explicit then some ⟨emptyScalar, tokens, reading.count 1⟩ else none)
  else parseNode (4 * tokens.length + 8) true false tokens reading

/-- The only document of a text; a text without any is an empty scalar. -/
def document? (tokens : List Token) : Option Document :=
  match tokens with
  | [.finish] => some ⟨emptyScalar, { handles := [] }⟩
  | tokens =>
    (directives? tokens false []).bind fun (declared, handles, tokens) =>
      let reading : Reading := { handles := handles ++ standardHandles }
      let root? : Option Parsed := match tokens with
        | .documentStart :: content => root? true content reading
        | content => if declared then none else root? false content reading
      root?.bind fun root =>
        match root.rest.dropWhile isDocumentEnd with
        | [.finish] => some ⟨root.tree, root.reading⟩
        | _ => none

end Admission.Yaml
