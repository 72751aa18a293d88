import Admission.Yaml.Cursor

/-! Scalars, anchors, tags and directives of a YAML text. A result of none is a text that is not
YAML. -/

set_option autoImplicit false

namespace Admission.Yaml

/-- Blanks, or line breaks with the blanks around them, between two parts of a scalar. -/
structure Gap where
  /-- The blanks in reverse. -/
  blanks : List Char := []
  /-- Whether the gap contains a line break, maybe one that was escaped. -/
  broken : Bool := false
  /-- The text of the first line break, and in reverse that of the ones behind it. -/
  first : List Char := []
  more : List Char := []

/-- What a gap adds to a text, which is in reverse. A single line feed is folded into a space. -/
def Gap.onto (gap : Gap) (text : List Char) : List Char :=
  if gap.broken then
    if gap.first = ['\n'] then (if gap.more.isEmpty then ' ' :: text else gap.more ++ text)
    else gap.more ++ gap.first ++ text
  else gap.blanks ++ text

/-- The gap that begins here. A tab left of `indent` at the start of a line is an error. -/
def readGap (fuel : Nat) (indent : Nat) (cursor : Cursor) (gap : Gap) : Option (Gap × Cursor) :=
  match fuel, cursor.rest with
  | fuel + 1, c :: _ =>
    if isBlank c then
      if gap.broken then
        if c = '\t' && cursor.column < indent then none
        else readGap fuel indent cursor.skip gap
      else readGap fuel indent cursor.skip { gap with blanks := c :: gap.blanks }
    else if isBreak c then
      let (text, cursor) := cursor.readBreak
      if gap.broken then readGap fuel indent cursor { gap with more := text ++ gap.more }
      else readGap fuel indent cursor { gap with blanks := [], broken := true, first := text }
    else some (gap, cursor)
  | _, _ => some (gap, cursor)

def hexValue? (c : Char) : Option Nat :=
  if '0' ≤ c && c ≤ '9' then some (c.toNat - 48)
  else if 'a' ≤ c && c ≤ 'f' then some (c.toNat - 87)
  else if 'A' ≤ c && c ≤ 'F' then some (c.toNat - 55)
  else none

def hexPoint? (digits : List Char) (count value : Nat) : Option Char :=
  match count, digits with
  | 0, _ => if value ≤ 0x10ffff ∧ ¬(0xd800 ≤ value ∧ value ≤ 0xdfff) then some (Char.ofNat value)
    else none
  | count + 1, digit :: digits =>
    (hexValue? digit).bind fun digit => hexPoint? digits count (value * 16 + digit)
  | _ + 1, [] => none

def escape? (c : Char) : Option Char :=
  match c with
  | '0' => some '\x00'
  | 'a' => some '\x07'
  | 'b' => some '\x08'
  | 't' | '\t' => some '\t'
  | 'n' => some '\n'
  | 'v' => some '\x0b'
  | 'f' => some '\x0c'
  | 'r' => some '\r'
  | 'e' => some '\x1b'
  | ' ' => some ' '
  | '"' => some '"'
  | '/' => some '/'
  | '\\' => some '\\'
  | 'N' => some '\x85'
  | '_' => some '\xa0'
  | 'L' => some '\u2028'
  | 'P' => some '\u2029'
  | _ => none

def escapeLength? (c : Char) : Option Nat :=
  match c with
  | 'x' => some 2
  | 'u' => some 4
  | 'U' => some 8
  | _ => none

/-- A quoted scalar after its opening quote; `text` is what was read so far in reverse. -/
def readQuoted (fuel : Nat) (single : Bool) (cursor : Cursor) (text : List Char) :
    Option (List Char × Cursor) :=
  let quote := if single then '\x27' else '"'
  match fuel with
  | 0 => none
  | fuel + 1 =>
    if cursor.atDocumentMark then none
    else
      match cursor.rest with
      | [] => none
      | c :: rest =>
        if isBlank c || isBreak c then
          (readGap (cursor.size + 1) 0 cursor {}).bind fun (gap, cursor) =>
            readQuoted fuel single cursor (gap.onto text)
        else if c = quote then
          if single && rest.head? = some '\x27' then
            readQuoted fuel single (cursor.skipMany 2) ('\x27' :: text)
          else some (text.reverse, cursor.skip)
        else if c = '\\' && !single then
          match rest with
          | [] => none
          | e :: digits =>
            if isBreak e then
              let (_, cursor) := cursor.skip.readBreak
              (readGap (cursor.size + 1) 0 cursor { broken := true }).bind
                fun (gap, cursor) => readQuoted fuel single cursor (gap.onto text)
            else match escapeLength? e with
              | some count =>
                (hexPoint? digits count 0).bind fun point =>
                  readQuoted fuel single (cursor.skipMany (2 + count)) (point :: text)
              | none =>
                (escape? e).bind fun char =>
                  readQuoted fuel single (cursor.skipMany 2) (char :: text)
        else readQuoted fuel single cursor.skip (c :: text)

def isFlowIndicator (c : Char) : Bool :=
  c = ',' || c = '[' || c = ']' || c = '\x7b' || c = '\x7d'

/-- The part of a plain scalar up to a blank, a line break or its end, in reverse. -/
def readPlainPart (fuel : Nat) (inFlow : Bool) (cursor : Cursor) (text : List Char) :
    Option (List Char × Cursor) :=
  match fuel, cursor.rest with
  | fuel + 1, c :: rest =>
    if isBlank c || isBreak c then some (text, cursor)
    else if c = ':' && endsWord rest then some (text, cursor)
    else if inFlow && c = ':' && (rest.head?.any fun c => isFlowIndicator c || c = '?') then none
    else if inFlow && isFlowIndicator c then some (text, cursor)
    else readPlainPart fuel inFlow cursor.skip (c :: text)
  | _, _ => some (text, cursor)

/-- A plain scalar whose lines after the first are indented by `indent` at least, and whether it was
left in a gap that contains a line break. -/
def readPlain (fuel : Nat) (inFlow : Bool) (indent : Nat) (cursor : Cursor) (gap : Gap)
    (text : List Char) : Option (List Char × Cursor × Bool) :=
  match fuel with
  | 0 => none
  | fuel + 1 =>
    if cursor.atDocumentMark || cursor.startsWith '#' then
      some (text.reverse, cursor, gap.broken)
    else
      (readPlainPart (cursor.size + 1) inFlow cursor []).bind fun (part, next) =>
        let text := if part.isEmpty then text else part ++ gap.onto text
        let pending := part.isEmpty && gap.broken
        match next.rest with
        | c :: _ =>
          if isBlank c || isBreak c then
            (readGap (next.size + 1) indent next {}).bind fun (gap, cursor) =>
              if !inFlow && cursor.column < indent then some (text.reverse, cursor, gap.broken)
              else readPlain fuel inFlow indent cursor gap text
          else some (text.reverse, next, pending)
        | [] => some (text.reverse, next, pending)

inductive Chomp where
  | strip
  | clip
  | keep

def chomp? (c : Char) : Option Chomp :=
  match c with
  | '+' => some .keep
  | '-' => some .strip
  | _ => none

/-- Empty lines before a line of a block scalar, as line breaks in reverse. While the indentation is
not known yet, `indent` is zero; `deepest` is the greatest column met. -/
def readBlockBreaks (fuel : Nat) (indent deepest : Nat) (cursor : Cursor) (breaks : List Char) :
    Option (List Char × Nat × Cursor) :=
  match fuel with
  | 0 => none
  | fuel + 1 =>
    let spaces := (cursor.rest.takeWhile (· = ' ')).length
    let count := if indent = 0 then spaces else min spaces (indent - cursor.column)
    let cursor := cursor.skipMany count
    let deepest := max deepest cursor.column
    match cursor.rest with
    | [] => some (breaks, deepest, cursor)
    | c :: _ =>
      if c = '\t' && (indent = 0 || cursor.column < indent) then none
      else if isBreak c then
        let (text, cursor) := cursor.readBreak
        readBlockBreaks fuel indent deepest cursor (text ++ breaks)
      else some (breaks, deepest, cursor)

structure BlockText where
  text : List Char := []
  /-- The break behind the last line, and in reverse the empty lines behind that. -/
  leading : List Char := []
  trailing : List Char
  blank : Bool := false

def readBlockLines (fuel : Nat) (literal : Bool) (indent : Nat) (cursor : Cursor)
    (block : BlockText) : Option (BlockText × Cursor) :=
  match fuel with
  | 0 => none
  | fuel + 1 =>
    match cursor.rest with
    | [] => some (block, cursor)
    | c :: _ =>
      if cursor.column ≠ indent then some (block, cursor)
      else
        let blank := isBlank c
        let joined :=
          if !literal && block.leading.head? = some '\n' && !block.blank && !blank then
            (if block.trailing.isEmpty then [' '] else [])
          else block.leading
        let (line, cursor) := cursor.takeWhile fun c => !isBreak c
        let (leading, cursor) := cursor.readBreak
        (readBlockBreaks (cursor.size + 1) indent 0 cursor []).bind
          fun (trailing, _, cursor) =>
            readBlockLines fuel literal indent cursor
              ⟨line.reverse ++ block.trailing ++ joined ++ block.text, leading, trailing, blank⟩

def blockHeader? (cursor : Cursor) : Option (Chomp × Option Nat × Cursor) :=
  let digit? (cursor : Cursor) : Option (Option Nat × Cursor) :=
    match cursor.rest with
    | c :: _ =>
      if c.isDigit then (if c = '0' then none else some (some (c.toNat - 48), cursor.skip))
      else some (none, cursor)
    | [] => some (none, cursor)
  match cursor.rest.head?.bind chomp? with
  | some chomp => (digit? cursor.skip).map fun (increment, cursor) => (chomp, increment, cursor)
  | none =>
    (digit? cursor).map fun (increment, next) =>
      match increment, next.rest.head?.bind chomp? with
      | some increment, some chomp => (chomp, some increment, next.skip)
      | increment, _ => (.clip, increment, next)

def skipToLineEnd? (cursor : Cursor) : Option Cursor :=
  let cursor := cursor.skipWhile isBlank
  let cursor := if cursor.startsWith '#' then cursor.skipWhile (!isBreak ·) else cursor
  if endsLine cursor.rest then some cursor.readBreak.2 else none

/-- A block scalar after its indicator, in a block of the given indentation. -/
def readBlock (literal : Bool) (outer : Int) (cursor : Cursor) : Option (List Char × Cursor) :=
  (blockHeader? cursor).bind fun (chomp, increment, cursor) =>
    (skipToLineEnd? cursor).bind fun cursor =>
      let fuel := cursor.size + 2
      let stated := increment.elim 0 fun increment => (max outer 0).toNat + increment
      (readBlockBreaks fuel stated 0 cursor []).bind fun (breaks, deepest, cursor) =>
        let indent := if stated = 0 then max (max deepest (outer + 1).toNat) 1 else stated
        (readBlockLines fuel literal indent cursor { trailing := breaks }).map
          fun (block, cursor) =>
            let tail := match chomp with
              | .strip => []
              | .clip => block.leading
              | .keep => block.trailing ++ block.leading
            ((tail ++ block.text).reverse, cursor)

def readAnchor (cursor : Cursor) : Option (String × Cursor) :=
  let (name, cursor) := cursor.takeWhile isWord
  let ends := match cursor.rest with
    | [] => true
    | c :: _ => isBlank c || isBreak c || "?:,]\x7d%@\x60".contains c
  if name.isEmpty || !ends then none else some (String.ofList name, cursor)

def isTagChar (verbatim : Bool) (c : Char) : Bool :=
  isWord c || ";/?:@&=+$.%!~*'()".contains c || (verbatim && ",[]".contains c)

def readTagText (fuel : Nat) (verbatim : Bool) (cursor : Cursor) (bytes : List UInt8) :
    Option (String × Cursor) :=
  let done (_ : Unit) : Option (String × Cursor) :=
    (String.fromUTF8? ⟨bytes.reverse.toArray⟩).map fun text => (text, cursor)
  match fuel, cursor.rest with
  | fuel + 1, c :: rest =>
    if c = '%' then
      match rest with
      | a :: b :: _ =>
        match hexValue? a, hexValue? b with
        | some a, some b =>
          readTagText fuel verbatim (cursor.skipMany 3) (UInt8.ofNat (a * 16 + b) :: bytes)
        | _, _ => none
      | _ => none
    else if isTagChar verbatim c then
      readTagText fuel verbatim cursor.skip ((String.singleton c).toUTF8.data.toList.reverse ++ bytes)
    else done ()
  | _, _ => done ()

/-- A tag as a handle and what follows it; the handle of a verbatim tag is empty. -/
structure Tag where
  handle : String
  suffix : String

/-- A handle: `!`, or a word between two of them. -/
def readHandle (cursor : Cursor) : String × Cursor :=
  let (word, next) := cursor.skip.takeWhile isWord
  if next.startsWith '!' then ("!" ++ String.ofList word ++ "!", next.skip)
  else ("!" ++ String.ofList word, next)

def readTag (inFlow : Bool) (cursor : Cursor) : Option (Tag × Cursor) :=
  let fuel := cursor.size + 1
  let tag? : Option (Tag × Cursor) :=
    match cursor.rest with
    | _ :: '<' :: _ =>
      (readTagText fuel true (cursor.skipMany 2) []).bind fun (suffix, cursor) =>
        if suffix.isEmpty || !cursor.startsWith '>' then none
        else some (⟨"", suffix⟩, cursor.skip)
    | _ =>
      let (handle, next) := readHandle cursor
      if handle.length > 1 && handle.back = '!' then
        (readTagText fuel false next []).bind fun (suffix, cursor) =>
          if suffix.isEmpty then none else some (⟨handle, suffix⟩, cursor)
      else
        (readTagText fuel false next []).map fun (rest, cursor) =>
          let suffix := (handle.drop 1).toString ++ rest
          if suffix.isEmpty then (⟨"", "!"⟩, cursor) else (⟨"!", suffix⟩, cursor)
  tag?.bind fun (tag, cursor) =>
    if endsWord cursor.rest || (inFlow && cursor.startsWith ',') then some (tag, cursor) else none

inductive Directive where
  | version (major minor : Nat)
  | tag (handle stem : String)

def readVersionNumber (cursor : Cursor) : Option (Nat × Cursor) :=
  let (digits, cursor) := cursor.takeWhile (·.isDigit)
  if digits.isEmpty || 9 < digits.length then none
  else some (digits.foldl (fun value c => 10 * value + (c.toNat - 48)) 0, cursor)

def readDirective (cursor : Cursor) : Option (Directive × Cursor) :=
  let (name, cursor) := cursor.skip.takeWhile isWord
  let value? : Option (Directive × Cursor) :=
    if name.isEmpty || !endsWord cursor.rest then none
    else if name = "YAML".toList then
      (readVersionNumber (cursor.skipWhile isBlank)).bind fun (major, cursor) =>
        if cursor.startsWith '.' then
          (readVersionNumber cursor.skip).map fun (minor, cursor) => (.version major minor, cursor)
        else none
    else if name = "TAG".toList then
      let cursor := cursor.skipWhile isBlank
      if !cursor.startsWith '!' then none
      else
        let (handle, cursor) := readHandle cursor
        if handle ≠ "!" && handle.back ≠ '!' then none
        else if !(cursor.rest.head?.any isBlank) then none
        else
          let cursor := cursor.skipWhile isBlank
          (readTagText (cursor.size + 1) true cursor []).bind fun (stem, cursor) =>
            if stem.isEmpty || !endsWord cursor.rest then none
            else some (.tag handle stem, cursor)
    else none
  value?.bind fun (directive, cursor) =>
    (skipToLineEnd? cursor).map fun cursor => (directive, cursor)

end Admission.Yaml
