/-! A place in a YAML text and the classes of characters that its words are made of. -/

set_option autoImplicit false

namespace Admission.Yaml

structure Cursor where
  /-- The length of the whole text, which bounds every reading in it. -/
  size : Nat
  rest : List Char
  index : Nat
  line : Nat
  column : Nat

def isBreak (c : Char) : Bool :=
  c = '\n' || c = '\r' || c = '\x85' || c = '\u2028' || c = '\u2029'

def isBlank (c : Char) : Bool :=
  c = ' ' || c = '\t'

def isWord (c : Char) : Bool :=
  c.isAlphanum || c = '_' || c = '-'

def isAllowed (c : Char) : Bool :=
  let n := c.toNat
  n = 9 || n = 10 || n = 13 || (0x20 ≤ n && n ≤ 0x7e) || n = 0x85 || (0xa0 ≤ n && n ≤ 0xfffd)
    || 0x10000 ≤ n

def endsWord (rest : List Char) : Bool :=
  match rest with
  | [] => true
  | c :: _ => isBlank c || isBreak c

def endsLine (rest : List Char) : Bool :=
  match rest with
  | [] => true
  | c :: _ => isBreak c

namespace Cursor

def ofText (text : List Char) : Cursor :=
  ⟨text.length, text, 0, 0, 0⟩

def skip (cursor : Cursor) : Cursor :=
  match cursor.rest with
  | [] => cursor
  | _ :: rest => { cursor with rest, index := cursor.index + 1, column := cursor.column + 1 }

def skipMany (cursor : Cursor) (count : Nat) : Cursor :=
  { cursor with
    rest := cursor.rest.drop count
    index := cursor.index + count
    column := cursor.column + count }

/-- On the next line, where `rest` is left. -/
def newLine (cursor : Cursor) (length : Nat) (rest : List Char) : Cursor :=
  { cursor with rest, index := cursor.index + length, line := cursor.line + 1, column := 0 }

/-- Past a line break, with the text it stands for: a line feed, or the separator itself. -/
def readBreak (cursor : Cursor) : List Char × Cursor :=
  match cursor.rest with
  | '\r' :: '\n' :: rest => (['\n'], cursor.newLine 2 rest)
  | c :: rest =>
    if c = '\u2028' || c = '\u2029' then ([c], cursor.newLine 1 rest)
    else if isBreak c then (['\n'], cursor.newLine 1 rest)
    else ([], cursor)
  | [] => ([], cursor)

def takeWhile (cursor : Cursor) (test : Char → Bool) : List Char × Cursor :=
  let taken := cursor.rest.takeWhile test
  (taken, cursor.skipMany taken.length)

def skipWhile (cursor : Cursor) (test : Char → Bool) : Cursor :=
  (cursor.takeWhile test).2

def startsWith (cursor : Cursor) (c : Char) : Bool :=
  cursor.rest.head? = some c

/-- Whether a line begins here that is a mark between documents made of three times `c`. -/
def atMark (cursor : Cursor) (c : Char) : Bool :=
  cursor.column = 0 &&
    match cursor.rest with
    | a :: b :: d :: rest => a = c && b = c && d = c && endsWord rest
    | _ => false

def atDocumentMark (cursor : Cursor) : Bool :=
  cursor.atMark '-' || cursor.atMark '.'

end Cursor

end Admission.Yaml
