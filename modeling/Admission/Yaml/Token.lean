import Admission.Yaml.Scalar

/-! The tokens of a YAML text. Indentation becomes tokens that open and close blocks, and a key that
is known as such only by the colon behind it gets its token inserted where it began. -/

set_option autoImplicit false

namespace Admission.Yaml

inductive ScalarStyle where
  | plain
  | quoted
  deriving DecidableEq

inductive Token where
  | directive (value : Directive)
  | documentStart
  | documentEnd
  | blockSequenceStart
  | blockMappingStart
  | blockEnd
  | flowSequenceStart
  | flowSequenceEnd
  | flowMappingStart
  | flowMappingEnd
  | blockEntry
  | flowEntry
  | key
  | value
  | alias (name : String)
  | anchor (name : String)
  | tag (value : Tag)
  | scalar (style : ScalarStyle) (text : String)
  | finish

/-- Where a key may have begun: the number of its first token and its place. A required one stands
where the block around it has its keys. -/
structure KeyMark where
  token : Nat
  required : Bool
  index : Nat
  line : Nat
  column : Nat

structure Scanner where
  cursor : Cursor
  tokens : Array Token
  indent : Int
  indents : List Int
  /-- The last possible key outside of all brackets. -/
  blockKey : Option KeyMark
  /-- The last possible key inside of each open bracket, innermost first. -/
  flowKeys : List (Option KeyMark)
  keyAllowed : Bool

namespace Scanner

def inFlow (s : Scanner) : Bool :=
  !s.flowKeys.isEmpty

def push (s : Scanner) (token : Token) : Scanner :=
  { s with tokens := s.tokens.push token }

def indicator (s : Scanner) (length : Nat) (token : Token) : Scanner :=
  { s.push token with cursor := s.cursor.skipMany length }

def toNextToken (fuel : Nat) (s : Scanner) : Scanner :=
  match fuel, s.cursor.rest with
  | fuel + 1, c :: _ =>
    if c = ' ' || (c = '\t' && (s.inFlow || !s.keyAllowed)) || (c = '\ufeff' && s.cursor.column = 0)
    then toNextToken fuel { s with cursor := s.cursor.skip }
    else
      let cursor := if c = '#' then s.cursor.skipWhile (!isBreak ·) else s.cursor
      match cursor.rest with
      | c :: _ =>
        if isBreak c then
          toNextToken fuel
            { s with cursor := cursor.readBreak.2, keyAllowed := s.keyAllowed || !s.inFlow }
        else { s with cursor }
      | [] => { s with cursor }
  | _, _ => s

/-- Whether the cursor has left a possible key behind: a key ends on its line and within 1024
characters. -/
def isStale (cursor : Cursor) (mark : KeyMark) : Bool :=
  mark.line < cursor.line || mark.index + 1024 < cursor.index

/-- Give up the possible key outside of brackets when it is stale, unless it is required. -/
def dropStaleKey (s : Scanner) : Option Scanner :=
  match s.blockKey with
  | none => some s
  | some mark =>
    if !isStale s.cursor mark then some s
    else if mark.required then none
    else some { s with blockKey := none }

def key? (s : Scanner) : Option KeyMark :=
  (match s.flowKeys with
    | [] => s.blockKey
    | key :: _ => key).filter fun mark => !isStale s.cursor mark

def setKey (s : Scanner) (key : Option KeyMark) : Scanner :=
  match s.flowKeys with
  | [] => { s with blockKey := key }
  | _ :: keys => { s with flowKeys := key :: keys }

def unroll (s : Scanner) (column : Int) : Scanner :=
  if s.inFlow then s
  else
    let closed := (s.indent :: s.indents).takeWhile (column < ·)
    let left := (s.indent :: s.indents).drop closed.length
    { s with
      tokens := closed.foldl (fun tokens _ => tokens.push .blockEnd) s.tokens
      indent := left.headD (-1)
      indents := left.tail }

def roll (s : Scanner) (column place : Nat) (token : Token) : Scanner :=
  if s.inFlow || column ≤ s.indent then s
  else
    { s with
      tokens := s.tokens.insertIdxIfInBounds place token
      indent := column
      indents := s.indent :: s.indents }

def forgetKey (s : Scanner) : Option Scanner :=
  if !s.inFlow && s.blockKey.any (·.required) then none else some (s.setKey none)

def saveKey (s : Scanner) : Option Scanner :=
  if s.keyAllowed then
    s.forgetKey.map fun s =>
      s.setKey (some
        ⟨s.tokens.size, !s.inFlow && s.indent = s.cursor.column, s.cursor.index, s.cursor.line,
          s.cursor.column⟩)
  else some s

/-- The start or the end of a document, which closes all blocks. -/
def documentMark (s : Scanner) (token : Token) : Option Scanner :=
  (s.unroll (-1)).forgetKey.map fun s => { s.indicator 3 token with keyAllowed := false }

def openFlow (s : Scanner) (token : Token) : Option Scanner :=
  s.saveKey.map fun s =>
    { s with flowKeys := none :: s.flowKeys, keyAllowed := true }.indicator 1 token

def closeFlow (s : Scanner) (token : Token) : Option Scanner :=
  s.forgetKey.map fun s =>
    { s with flowKeys := s.flowKeys.tail, keyAllowed := false }.indicator 1 token

def entry (s : Scanner) : Option Scanner :=
  if !s.inFlow && !s.keyAllowed then none
  else
    (s.roll s.cursor.column s.tokens.size .blockSequenceStart).forgetKey.map fun s =>
      { s.indicator 1 .blockEntry with keyAllowed := true }

def explicitKey (s : Scanner) : Option Scanner :=
  if !s.inFlow && !s.keyAllowed then none
  else
    (s.roll s.cursor.column s.tokens.size .blockMappingStart).forgetKey.map fun s =>
      { s with keyAllowed := !s.inFlow }.indicator 1 .key

/-- A colon: the token of the possible key before it is inserted where that began. -/
def mappingValue (s : Scanner) : Option Scanner :=
  match s.key? with
  | some mark =>
    let s := { s with tokens := s.tokens.insertIdxIfInBounds mark.token .key }.setKey none
    let s := s.roll mark.column mark.token .blockMappingStart
    some { s.indicator 1 .value with keyAllowed := false }
  | none =>
    if !s.inFlow && !s.keyAllowed then none
    else
      let s := s.roll s.cursor.column s.tokens.size .blockMappingStart
      some ({ s with keyAllowed := !s.inFlow }.indicator 1 .value)

def startsPlain (s : Scanner) (c : Char) (rest : List Char) : Bool :=
  (!isBlank c && !"-?:,[]\x7b\x7d#&*!|>\x27\"%@\x60".contains c)
    || (c = '-' && !(rest.head?.any isBlank))
    || (!s.inFlow && (c = '?' || c = ':') && !endsWord rest)

def readWith {α : Type} (s : Scanner) (read : Cursor → Option (α × Cursor)) (token : α → Token) :
    Option Scanner :=
  s.saveKey.bind fun s =>
    (read s.cursor).map fun (value, cursor) =>
      { s.push (token value) with cursor, keyAllowed := false }

def plainScalar (s : Scanner) : Option Scanner :=
  s.saveKey.bind fun s =>
    (readPlain (s.cursor.size + 1) s.inFlow (s.indent + 1).toNat s.cursor {} []).map
      fun (text, cursor, broken) =>
        { s.push (.scalar .plain (String.ofList text)) with cursor, keyAllowed := broken }

def blockScalar (s : Scanner) (literal : Bool) : Option Scanner :=
  s.forgetKey.bind fun s =>
    (readBlock literal s.indent s.cursor.skip).map fun (text, cursor) =>
      { s.push (.scalar .quoted (String.ofList text)) with cursor, keyAllowed := true }

def quotedScalar (s : Scanner) (single : Bool) : Option Scanner :=
  s.readWith (fun cursor => readQuoted (cursor.size + 1) single cursor.skip [])
    fun text => .scalar .quoted (String.ofList text)

def directive (s : Scanner) : Option Scanner :=
  (s.unroll (-1)).forgetKey.bind fun s =>
    (readDirective s.cursor).map fun (directive, cursor) =>
      { s.push (.directive directive) with cursor, keyAllowed := false }

def next (s : Scanner) (c : Char) (rest : List Char) : Option Scanner :=
  if s.cursor.column = 0 && c = '%' then s.directive
  else if s.cursor.atMark '-' then s.documentMark .documentStart
  else if s.cursor.atMark '.' then s.documentMark .documentEnd
  else if c = '[' then s.openFlow .flowSequenceStart
  else if c = '\x7b' then s.openFlow .flowMappingStart
  else if c = ']' then s.closeFlow .flowSequenceEnd
  else if c = '\x7d' then s.closeFlow .flowMappingEnd
  else if c = ',' then s.forgetKey.map fun s => { s.indicator 1 .flowEntry with keyAllowed := true }
  else if c = '-' && endsWord rest then s.entry
  else if c = '?' && (s.inFlow || endsWord rest) then s.explicitKey
  else if c = ':' && (s.inFlow || endsWord rest) then s.mappingValue
  else if c = '*' then s.readWith (fun cursor => readAnchor cursor.skip) .alias
  else if c = '&' then s.readWith (fun cursor => readAnchor cursor.skip) .anchor
  else if c = '!' then s.readWith (readTag s.inFlow) .tag
  else if c = '|' && !s.inFlow then s.blockScalar true
  else if c = '>' && !s.inFlow then s.blockScalar false
  else if c = '\x27' then s.quotedScalar true
  else if c = '"' then s.quotedScalar false
  else if s.startsPlain c rest then s.plainScalar
  else none

def finish (s : Scanner) : Option Scanner :=
  let cursor := s.cursor
  let s := { s with cursor := if cursor.column = 0 then cursor else cursor.newLine 0 [] }
  (s.unroll (-1)).forgetKey.map (·.push .finish)

def run (fuel : Nat) (s : Scanner) : Option Scanner :=
  match fuel with
  | 0 => none
  | fuel + 1 =>
    (s.toNextToken (s.cursor.size + 1)).dropStaleKey.bind fun s =>
      let s := s.unroll s.cursor.column
      match s.cursor.rest with
      | [] => s.finish
      | c :: rest => (s.next c rest).bind (run fuel)

end Scanner

def tokens? (text : List Char) : Option (List Token) :=
  if text.all isAllowed then
    let s : Scanner := ⟨.ofText text, #[], -1, [], none, [], true⟩
    (s.run (text.length + 2)).map (·.tokens.toList)
  else none

end Admission.Yaml
