import Admission.Proofs.Json.Building
import Admission.Proofs.Json.Rereading

/-! A printed value is a text of the grammar that says the value with its numbers as their texts are
read, so that this is what is read back. Reading gives up on brackets that nest too deep; that apart,
nothing is lost. -/

set_option autoImplicit false

namespace Admission.Json

open Text (utf8Bytes)

def stringBytes (text : String) : List UInt8 :=
  34 :: (text.toList.flatMap (fun c => utf8Bytes (escape c)) ++ [34])

mutual

def bytes : Json → List UInt8
  | .null => [110, 117, 108, 108]
  | .bool true => [116, 114, 117, 101]
  | .bool false => [102, 97, 108, 115, 101]
  | .number value => utf8Bytes value.text
  | .string value => stringBytes value
  | .array [] => [91, 93]
  | .array (item :: items) => 91 :: (bytes item ++ itemsBytes items)
  | .object [] => [123, 125]
  | .object ((key, value) :: members) =>
    123 :: (stringBytes key ++ 58 :: (bytes value ++ membersBytes members))

def itemsBytes : List Json → List UInt8
  | [] => [93]
  | item :: items => 44 :: (bytes item ++ itemsBytes items)

def membersBytes : List (String × Json) → List UInt8
  | [] => [125]
  | (key, value) :: members =>
    44 :: (stringBytes key ++ 58 :: (bytes value ++ membersBytes members))

end

theorem utf8Bytes_foldl_escape (chars : List Char) (out : String) :
    utf8Bytes (chars.foldl (fun out c => out ++ escape c) out) =
      utf8Bytes out ++ chars.flatMap (fun c => utf8Bytes (escape c)) := by
  induction chars generalizing out with
  | nil => simp
  | cons c chars ih => simp [ih]

theorem utf8Bytes_writeString (text out : String) :
    utf8Bytes (writeString text out) = utf8Bytes out ++ stringBytes text := by
  rw [writeString, Text.utf8Bytes_push, utf8Bytes_foldl_escape, Text.utf8Bytes_push,
    show String.utf8EncodeChar '"' = [34] from rfl]
  simp [stringBytes]

theorem utf8Bytes_writeItems {items : List Json}
    (written : ∀ item ∈ items, ∀ out, utf8Bytes (item.write out) = utf8Bytes out ++ item.bytes)
    (out : String) : utf8Bytes (writeItems items out) = utf8Bytes out ++ itemsBytes items := by
  induction items generalizing out with
  | nil =>
    rw [writeItems, Text.utf8Bytes_push]
    rfl
  | cons item items ih =>
    rw [List.forall_mem_cons] at written
    rw [writeItems, ih written.2, written.1, Text.utf8Bytes_push,
      show String.utf8EncodeChar ',' = [44] from rfl]
    simp [itemsBytes]

theorem utf8Bytes_writeMembers {members : List (String × Json)}
    (written : ∀ member ∈ members, ∀ out,
      utf8Bytes (member.2.write out) = utf8Bytes out ++ member.2.bytes)
    (out : String) :
    utf8Bytes (writeMembers members out) = utf8Bytes out ++ membersBytes members := by
  induction members generalizing out with
  | nil =>
    rw [writeMembers, Text.utf8Bytes_push]
    rfl
  | cons member members ih =>
    rw [List.forall_mem_cons] at written
    rw [writeMembers, ih written.2, written.1, Text.utf8Bytes_push, utf8Bytes_writeString,
      Text.utf8Bytes_push, show String.utf8EncodeChar ',' = [44] from rfl,
      show String.utf8EncodeChar ':' = [58] from rfl]
    simp [membersBytes]

theorem utf8Bytes_write (json : Json) (out : String) :
    utf8Bytes (json.write out) = utf8Bytes out ++ json.bytes := by
  induction json generalizing out with
  | null =>
    rw [write, Text.utf8Bytes_append]
    rfl
  | bool value => cases value <;> rw [write, Text.utf8Bytes_append] <;> rfl
  | number value => rw [write, Text.utf8Bytes_append, bytes]
  | string value => rw [write, utf8Bytes_writeString, bytes]
  | array items ih =>
    cases items with
    | nil =>
      rw [write, Text.utf8Bytes_append]
      rfl
    | cons item items =>
      rw [List.forall_mem_cons] at ih
      rw [write, utf8Bytes_writeItems ih.2, ih.1, Text.utf8Bytes_push,
        show String.utf8EncodeChar '[' = [91] from rfl]
      simp [bytes]
  | object members ih =>
    cases members with
    | nil =>
      rw [write, Text.utf8Bytes_append]
      rfl
    | cons member members =>
      rw [List.forall_mem_cons] at ih
      rw [write, utf8Bytes_writeMembers ih.2, ih.1, Text.utf8Bytes_push, utf8Bytes_writeString,
        Text.utf8Bytes_push, show String.utf8EncodeChar '\x7b' = [123] from rfl,
        show String.utf8EncodeChar ':' = [58] from rfl]
      simp [bytes]

theorem utf8Bytes_render (json : Json) : utf8Bytes json.render = json.bytes := by
  rw [render, utf8Bytes_write]
  rfl

mutual

def Outline.ofJson : Json → Outline
  | .null => .atom .null
  | .bool value => .atom (.bool value)
  | .number value => .atom (.number (some value))
  | .string value => .atom (.string (some value))
  | .array items => .array (ofItems items)
  | .object members => .object (ofMembers members)

def Outline.ofItems : List Json → List Outline
  | [] => []
  | item :: items => ofJson item :: ofItems items

def Outline.ofMembers : List (String × Json) → List (Option String × Outline)
  | [] => []
  | (key, value) :: members => (some key, ofJson value) :: ofMembers members

end

theorem isPlain_of_le {byte : UInt8} (high : 128 ≤ byte) : IsPlain byte := by
  rw [UInt8.le_iff_toNat_le] at high
  refine ⟨?_, ?_, ?_⟩
  · rw [UInt8.le_iff_toNat_le]
    exact Nat.le_trans (by decide) high
  · rintro rfl
    exact absurd high (by decide)
  · rintro rfl
    exact absurd high (by decide)

theorem isPlain_of_mem_utf8EncodeChar {c : Char} (printable : 32 ≤ c.toNat) (noQuote : c ≠ '"')
    (noBackslash : c ≠ '\\') {byte : UInt8} (mem : byte ∈ String.utf8EncodeChar c) :
    IsPlain byte := by
  -- an ASCII character is its own byte; the bytes of any other are beyond all special ones
  by_cases ascii : c.toNat < 128
  · rw [Text.utf8EncodeChar_of_ascii ascii, List.mem_singleton] at mem
    have toNat : byte.toNat = c.toNat := by
      rw [mem]
      exact UInt8.toNat_ofNat_of_lt' (Nat.lt_trans ascii (by decide))
    refine ⟨?_, ?_, ?_⟩
    · rw [UInt8.le_iff_toNat_le, toNat]
      exact printable
    · rintro rfl
      exact noQuote (Char.toNat_inj.1 toNat.symm)
    · rintro rfl
      exact noBackslash (Char.toNat_inj.1 toNat.symm)
  · exact isPlain_of_le (Text.le_of_mem_utf8EncodeChar (Nat.not_lt.1 ascii) mem)

theorem hexUnit?_escape : ∀ n < 32, hexUnit? 48 48 (UInt8.ofNat (Nat.digitChar (n / 16)).toNat)
    (UInt8.ofNat (Nat.digitChar (n % 16)).toNat) = some n := by
  decide

theorem utf8Bytes_controlEscape {c : Char} (control : c.toNat < 32) :
    utf8Bytes ("\\u00" ++
        String.ofList [Nat.digitChar (c.toNat / 16), Nat.digitChar (c.toNat % 16)]) =
      [92, 117, 48, 48, UInt8.ofNat (Nat.digitChar (c.toNat / 16)).toNat,
        UInt8.ofNat (Nat.digitChar (c.toNat % 16)).toNat] := by
  have ascii : ∀ n < 32, (Nat.digitChar (n / 16)).toNat < 128 ∧
      (Nat.digitChar (n % 16)).toNat < 128 := by decide
  have digits : ∀ digit ∈ [Nat.digitChar (c.toNat / 16), Nat.digitChar (c.toNat % 16)],
      digit.toNat < 128 := by simpa using ascii c.toNat control
  rw [Text.utf8Bytes_append, Text.utf8Bytes_of_ascii digits]
  rfl

theorem pointBytes_toNat (c : Char) : pointBytes c.toNat = String.utf8EncodeChar c := by
  rw [pointBytes, Char.ofNat_toNat]

theorem spellsSigns_plain {plain : List UInt8} (all : ∀ byte ∈ plain, IsPlain byte)
    {rest : List UInt8} {signs : List Sign} (spells : SpellsSigns rest signs) :
    SpellsSigns (plain ++ rest) (plain.map .byte ++ signs) := by
  induction plain with
  | nil => exact spells
  | cons byte plain ih =>
    rw [List.forall_mem_cons] at all
    exact .plain all.1 (ih all.2)

theorem bytes?_plain (plain : List UInt8) (signs : List Sign) :
    Sign.bytes? (plain.map .byte ++ signs) = (Sign.bytes? signs).map (plain ++ ·) := by
  induction plain with
  | nil => simp
  | cons byte plain ih =>
    rw [List.map_cons, List.cons_append, Sign.bytes?, ih]
    cases Sign.bytes? signs <;> rfl

theorem spells_escape (c : Char) {rest : List UInt8} {signs : List Sign}
    (spells : SpellsSigns rest signs) : ∃ signs', SpellsSigns (utf8Bytes (escape c) ++ rest) signs' ∧
      Sign.bytes? signs' = (Sign.bytes? signs).map (String.utf8EncodeChar c ++ ·) := by
  unfold escape
  split
  case h_8 noQuote noBackslash _ _ _ _ _ =>
    -- without a short escape a character is a code unit in hexadecimal or stands for itself
    split
    · rename_i control
      rw [utf8Bytes_controlEscape control]
      have noLead : isLead c.toNat = false := by grind [isLead]
      have noTrail : isTrail c.toNat = false := by grind [isTrail]
      refine ⟨_, .unit (hexUnit?_escape c.toNat control) spells, ?_⟩
      rw [Sign.bytes?_point noLead noTrail, pointBytes_toNat]
    · rename_i printable
      have plain : ∀ byte ∈ String.utf8EncodeChar c, IsPlain byte := fun _ =>
        isPlain_of_mem_utf8EncodeChar (Nat.not_lt.1 printable) noQuote noBackslash
      have bytes : utf8Bytes c.toString = String.utf8EncodeChar c := by
        simp [Text.utf8Bytes_eq, Char.toString]
      rw [bytes]
      exact ⟨_, spellsSigns_plain plain spells, bytes?_plain ..⟩
  all_goals exact ⟨_, .short rfl spells, rfl⟩

theorem exists_signs (chars : List Char) : ∃ signs,
    SpellsSigns (chars.flatMap fun c => utf8Bytes (escape c)) signs ∧
      Sign.bytes? signs = some (chars.flatMap String.utf8EncodeChar) := by
  induction chars with
  | nil => exact ⟨[], .nil, rfl⟩
  | cons c chars ih =>
    obtain ⟨signs, spells, bytes⟩ := ih
    obtain ⟨signs', spells, bytes'⟩ := spells_escape c spells
    exact ⟨signs', spells, by rw [bytes', bytes]; rfl⟩

theorem spellsMark_string (text : String) :
    SpellsMark (stringBytes text) (.atom (.string (some text))) := by
  obtain ⟨signs, spells, bytes⟩ := exists_signs text.toList
  have text_eq : Sign.text? signs = some text := by
    rw [Sign.text?, bytes, Option.bind_some, ← Text.utf8Bytes_eq, Text.toByteArray_utf8Bytes,
      Text.fromUTF8?_toUTF8]
  rw [← text_eq]
  exact .string spells

theorem spellsMark_number (number : Number) :
    SpellsMark (utf8Bytes number.text) (.atom (.number (some number.reread))) := by
  obtain ⟨text, wellFormed, bytes_eq, value_eq⟩ := exists_numberText number
  have value : (text.value 0 0).toOption = some number.reread := by rw [value_eq]; rfl
  rw [bytes_eq, ← value]
  exact .number wellFormed (spellsExponent_exponentBytes text.exponent)

theorem SpellsMarks.cons {front behind : List UInt8} {mark : Mark} {marks : List Mark}
    (first : SpellsMark front mark) (rest : SpellsMarks behind marks) :
    SpellsMarks (front ++ behind) (mark :: marks) :=
  .mark blank_nil first rest

theorem spells_items {items : List Json} {behind : List UInt8} {marks : List Mark}
    (rest : SpellsMarks behind marks)
    (ih : ∀ item ∈ items, ∀ (behind : List UInt8) (marks : List Mark), SpellsMarks behind marks →
      SpellsMarks (item.bytes ++ behind) ((Outline.ofJson item.reread).marks ++ marks)) :
    SpellsMarks (itemsBytes items ++ behind)
      (itemsMarks (Outline.ofItems (rereadItems items)) ++ marks) := by
  induction items with
  | nil => exact .cons .closeArray rest
  | cons item items others =>
    rw [List.forall_mem_cons] at ih
    rw [itemsBytes, rereadItems, Outline.ofItems, itemsMarks, List.cons_append, List.append_assoc,
      List.cons_append, List.append_assoc]
    exact .cons .comma (ih.1 _ _ (others ih.2))

theorem spells_member (key : String) {value : Json} {behind : List UInt8} {marks : List Mark}
    (rest : SpellsMarks (value.bytes ++ behind) ((Outline.ofJson value.reread).marks ++ marks)) :
    SpellsMarks (stringBytes key ++ 58 :: (value.bytes ++ behind))
      (.atom (.string (some key)) :: .colon :: ((Outline.ofJson value.reread).marks ++ marks)) :=
  .cons (spellsMark_string key) (.cons .colon rest)

theorem spells_members {members : List (String × Json)} {behind : List UInt8} {marks : List Mark}
    (rest : SpellsMarks behind marks)
    (ih : ∀ member ∈ members, ∀ (behind : List UInt8) (marks : List Mark), SpellsMarks behind marks →
      SpellsMarks (member.2.bytes ++ behind) ((Outline.ofJson member.2.reread).marks ++ marks)) :
    SpellsMarks (membersBytes members ++ behind)
      (membersMarks (Outline.ofMembers (rereadMembers members)) ++ marks) := by
  induction members with
  | nil => exact .cons .closeObject rest
  | cons member members others =>
    rw [List.forall_mem_cons] at ih
    have spelled := spells_member member.1 (ih.1 _ _ (others ih.2))
    have comma := SpellsMarks.cons .comma spelled
    simpa [membersBytes, rereadMembers, Outline.ofMembers, membersMarks] using comma

/-- A printed value is a spelling of the value with its numbers re-read. -/
theorem spells_bytes (json : Json) {behind : List UInt8} {marks : List Mark}
    (rest : SpellsMarks behind marks) :
    SpellsMarks (json.bytes ++ behind) ((Outline.ofJson json.reread).marks ++ marks) := by
  induction json generalizing behind marks with
  | null => exact .cons .null rest
  | bool value =>
    cases value with
    | false => exact .cons .false rest
    | true => exact .cons .true rest
  | number value => exact .cons (spellsMark_number value) rest
  | string value => exact .cons (spellsMark_string value) rest
  | array items ih =>
    cases items with
    | nil =>
      have opened := SpellsMarks.cons .openArray (.cons .closeArray rest)
      exact opened
    | cons item items =>
      rw [List.forall_mem_cons] at ih
      have items := spells_items rest fun item mem behind marks => ih.2 item mem
      have opened := SpellsMarks.cons .openArray (ih.1 items)
      simpa [bytes, reread, rereadItems, Outline.ofJson, Outline.ofItems, Outline.marks] using opened
  | object members ih =>
    cases members with
    | nil =>
      have opened := SpellsMarks.cons .openObject (.cons .closeObject rest)
      exact opened
    | cons member members =>
      rw [List.forall_mem_cons] at ih
      have members := spells_members rest fun member mem behind marks => ih.2 member mem
      have opened := SpellsMarks.cons .openObject (spells_member member.1 (ih.1 members))
      simpa [bytes, reread, rereadMembers, Outline.ofJson, Outline.ofMembers, Outline.marks] using opened

theorem spelledBy_render (json : Json) :
    (Outline.ofJson json.reread).SpelledBy (utf8Bytes json.render) := by
  have spelled := spells_bytes json (.finish blank_nil)
  rwa [List.append_nil, List.append_nil, ← utf8Bytes_render] at spelled

mutual

/-- The node of a value that is written, without offsets. -/
def Node.ofJson : Json → Node
  | .null => .scalar .null 0 0
  | .bool value => .scalar (.bool value) 0 0
  | .number value => .scalar (.number (.ok value)) 0 0
  | .string value => .scalar (.string (.ok value)) 0 0
  | .array items => .array 0 0 (ofItems items) (.closed 0)
  | .object members => .object 0 (ofMembers members) (.closed 0)

def Node.ofItems : List Json → List Node
  | [] => []
  | item :: items => ofJson item :: ofItems items

def Node.ofMembers : List (String × Json) → List (Key × Node)
  | [] => []
  | (key, value) :: members => (⟨.ok key, 0, 0⟩, ofJson value) :: ofMembers members

end

theorem itemValues_ofItems {items : List Json} {room : Nat}
    (values : ∀ item ∈ items, (Node.ofJson item).value room = .ok (.ofJson item))
    (read : List Tree) : itemValues (Node.ofItems items) room (.closed 0) read =
      .ok (read.reverse ++ Tree.ofItems items) := by
  induction items generalizing read with
  | nil => simp [itemValues, Node.ofItems, Tree.ofItems]
  | cons item items ih =>
    rw [List.forall_mem_cons] at values
    simp [itemValues, Node.ofItems, Tree.ofItems, values.1, ih values.2]

theorem memberValues_ofMembers {members : List (String × Json)} {room : Nat}
    (values : ∀ member ∈ members, (Node.ofJson member.2).value room = .ok (.ofJson member.2))
    (read : Entries Tree) : memberValues (Node.ofMembers members) room (.closed 0) read =
      .ok (read.reverse ++ Tree.ofMembers members) := by
  induction members generalizing read with
  | nil => simp [memberValues, Node.ofMembers, Tree.ofMembers]
  | cons member members ih =>
    rw [List.forall_mem_cons] at values
    simp [memberValues, Node.ofMembers, Tree.ofMembers, values.1, ih values.2]

theorem Node.value_ofJson {json : Json} {room : Nat} (fits : json.depth ≤ room) :
    (ofJson json).value room = .ok (.ofJson json) := by
  induction json generalizing room with
  | null | bool | number | string => rfl
  | array items ih =>
    cases room with
    | zero => simp [depth] at fits
    | succ room =>
      rw [depth_array_le_iff] at fits
      rw [ofJson, Node.value, itemValues_ofItems fun item mem => ih item mem (fits item mem)]
      rfl
  | object members ih =>
    cases room with
    | zero => simp [depth] at fits
    | succ room =>
      rw [depth_object_le_iff] at fits
      rw [ofJson, Node.value,
        memberValues_ofMembers fun member mem => ih member mem (fits member mem)]
      rfl

theorem itemNodes_ofItems {items : List Json}
    (nodes : ∀ item ∈ items, (Outline.ofJson item).node = .ofJson item) :
    itemNodes (Outline.ofItems items) = Node.ofItems items := by
  induction items with
  | nil => rfl
  | cons item items ih =>
    rw [List.forall_mem_cons] at nodes
    rw [Outline.ofItems, itemNodes, nodes.1, ih nodes.2, Node.ofItems]

theorem memberNodes_ofMembers {members : List (String × Json)}
    (nodes : ∀ member ∈ members, (Outline.ofJson member.2).node = .ofJson member.2) :
    memberNodes (Outline.ofMembers members) = Node.ofMembers members := by
  induction members with
  | nil => rfl
  | cons member members ih =>
    rw [List.forall_mem_cons] at nodes
    rw [Outline.ofMembers, memberNodes, nodes.1, ih nodes.2, Node.ofMembers]
    rfl

theorem node_ofJson (json : Json) : (Outline.ofJson json).node = .ofJson json := by
  induction json with
  | null | bool | number | string => rfl
  | array items ih => rw [Outline.ofJson, Outline.node, itemNodes_ofItems ih, Node.ofJson]
  | object members ih => rw [Outline.ofJson, Outline.node, memberNodes_ofMembers ih, Node.ofJson]

/-- The tree of a printed text is read like the node of the value with its numbers re-read, with
nothing behind it. -/
theorem document_render (json : Json) : ∃ node : Node, node.Alike (.ofJson json.reread) ∧
    document (utf8Bytes json.render) = ⟨node, none⟩ := by
  rw [← node_ofJson]
  exact document_spelled (spelledBy_render json)

theorem Tree.json_ofItems {items : List Json}
    (json : ∀ item ∈ items, (Tree.ofJson item).json = item) :
    (Tree.ofItems items).map Tree.json = items := by
  induction items with
  | nil => rfl
  | cons item items ih =>
    rw [List.forall_mem_cons] at json
    rw [ofItems, List.map_cons, json.1, ih json.2]

theorem Tree.json_ofMembers {members : List (String × Json)}
    (json : ∀ member ∈ members, (Tree.ofJson member.2).json = member.2) :
    Entries.mapValues Tree.json (Tree.ofMembers members) = members := by
  induction members with
  | nil => rfl
  | cons member members ih =>
    rw [List.forall_mem_cons] at json
    rw [Entries.mapValues, ofMembers, List.map_cons, json.1, ← Entries.mapValues, ih json.2]

theorem Tree.json_ofJson {json : Json} (canonical : json.Canonical) :
    (Tree.ofJson json).json = json := by
  induction json with
  | null | bool | number | string => rfl
  | array items ih =>
    have items_eq := Tree.json_ofItems fun item mem => ih item mem (canonical.of_mem_items item mem)
    exact congrArg Json.array items_eq
  | object members ih =>
    have members_eq := Tree.json_ofMembers fun member mem =>
      ih member mem (canonical.of_mem_members member mem)
    have keys_eq : Entries.keys (Tree.ofMembers members) = Entries.keys members := by
      rw [← Entries.keys_mapValues Tree.json, members_eq]
    -- the members are in key order already, so that sorting them does nothing
    have sorted : Entries.Sorted (Tree.ofMembers members) := by
      rw [Entries.Sorted, keys_eq]
      exact canonical.members_sorted
    calc (Tree.ofJson (.object members)).json
        = .object (Entries.mapValues Tree.json (Entries.sort (Tree.ofMembers members))) := rfl
      _ = .object members := by rw [sorted.sort_eq, members_eq]

/-! ## Reading what was printed -/

/-- The value of a text of nothing but JSON in which no more than `limit` brackets are open at
once. -/
def parseWithin (limit : Nat) (bytes : List UInt8) : Except Error Tree :=
  ((document bytes).readWith (·.value limit)).mapError (·.locate bytes)

theorem parse_eq : parse = parseWithin nestingLimit :=
  rfl

/-- A printed value is read as its tree, with its numbers re-read. -/
theorem parseWithin_render (json : Json) {limit : Nat} (fits : json.depth ≤ limit) :
    parseWithin limit (Text.utf8Bytes json.render) = .ok (.ofJson json.reread) := by
  obtain ⟨node, alike, document_eq⟩ := document_render json
  have fits' : json.reread.depth ≤ limit := (json.depth_reread_le_iff limit).2 fits
  have value := (alike.symm.value limit).eq_ok (Node.value_ofJson fits')
  rw [parseWithin, document_eq, Document.readWith, value]
  rfl

theorem Tree.member?_ofJson {members : List (String × Json)}
    (nodup : (Entries.keys members).Nodup) (key : String) :
    (Tree.ofJson (.object members)).json.member? key =
      (Entries.find? members key).map fun value => (Tree.ofJson value).json := by
  have members_eq : Tree.ofMembers members = Entries.mapValues Tree.ofJson members := by
    induction members with
    | nil => rfl
    | cons member members ih =>
      rw [Entries.keys_cons, List.nodup_cons] at nodup
      rw [ofMembers, ih nodup.2]
      rfl
  have keys_eq : Entries.keys (Tree.ofMembers members) = Entries.keys members := by
    rw [members_eq, Entries.keys_mapValues]
  change Entries.find? (Entries.mapValues Tree.json (Entries.sort (Tree.ofMembers members))) key = _
  rw [Entries.find?_mapValues, Entries.find?_sort,
    Entries.find?_reverse (keys_eq ▸ nodup), members_eq, Entries.find?_mapValues, Option.map_map]
  rfl

end Admission.Json
