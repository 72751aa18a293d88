import Admission.Proofs.Json.Alike
import Admission.Proofs.Json.NumberText

/-! The grammar of JSON texts: what a text says, and the spellings of that. Blanks may stand between
any two words, and the signs of a string may be escaped in several ways. -/

set_option autoImplicit false

namespace Admission.Json

/-- A value without parts. A number that is out of range has no value, and a string that is no
Unicode text has none either; both are words of a text all the same. -/
inductive Atom where
  | null
  | bool (value : Bool)
  | number (value : Option Number)
  | string (text : Option String)

/-- What a text says: its members in their order, repeated ones included. -/
inductive Outline where
  | atom (atom : Atom)
  | array (items : List Outline)
  | object (members : List (Option String × Outline))

@[induction_eliminator]
protected theorem Outline.induction {motive : Outline → Prop} (atom : ∀ atom, motive (.atom atom))
    (array : ∀ items, (∀ item ∈ items, motive item) → motive (.array items))
    (object : ∀ members, (∀ member ∈ members, motive member.2) → motive (.object members))
    (outline : Outline) : motive outline :=
  Outline.rec (motive_1 := motive) (motive_2 := fun items => ∀ item ∈ items, motive item)
    (motive_3 := fun members => ∀ member ∈ members, motive member.2)
    (motive_4 := fun member => motive member.2)
    atom array object
    (by simp) (fun _ _ head tail => List.forall_mem_cons.2 ⟨head, tail⟩)
    (by simp) (fun _ _ head tail => List.forall_mem_cons.2 ⟨head, tail⟩)
    (fun _ _ value => value) outline

/-- A value as a reader gets it, one fault standing for all. -/
def orFault {α : Type} : Option α → Except Fault α
  | some value => .ok value
  | none => .error ⟨.expectedValue, 0⟩

def Atom.scalar : Atom → Scalar
  | .null => .null
  | .bool value => .bool value
  | .number value => .number (orFault value)
  | .string text => .string (orFault text)

mutual

def Outline.node : Outline → Node
  | .atom atom => .scalar atom.scalar 0 0
  | .array items => .array 0 0 (itemNodes items) (.closed 0)
  | .object members => .object 0 (memberNodes members) (.closed 0)

def itemNodes : List Outline → List Node
  | [] => []
  | item :: items => item.node :: itemNodes items

def memberNodes : List (Option String × Outline) → List (Key × Node)
  | [] => []
  | (name, value) :: members => (⟨orFault name, 0, 0⟩, value.node) :: memberNodes members

end

inductive Mark where
  | openArray
  | closeArray
  | openObject
  | closeObject
  | comma
  | colon
  | atom (atom : Atom)

mutual

def Outline.marks : Outline → List Mark
  | .atom atom => [.atom atom]
  | .array [] => [.openArray, .closeArray]
  | .array (item :: items) => .openArray :: (item.marks ++ itemsMarks items)
  | .object [] => [.openObject, .closeObject]
  | .object ((name, value) :: members) =>
    .openObject :: .atom (.string name) :: .colon :: (value.marks ++ membersMarks members)

def itemsMarks : List Outline → List Mark
  | [] => [.closeArray]
  | item :: items => .comma :: (item.marks ++ itemsMarks items)

def membersMarks : List (Option String × Outline) → List Mark
  | [] => [.closeObject]
  | (name, value) :: members =>
    .comma :: .atom (.string name) :: .colon :: (value.marks ++ membersMarks members)

end

/-- A sign of a string: a byte of the text, or a code unit. -/
inductive Sign where
  | byte (byte : UInt8)
  | unit (unit : Nat)

def IsPlain (byte : UInt8) : Prop :=
  32 ≤ byte ∧ byte ≠ 34 ∧ byte ≠ 92

instance : DecidablePred IsPlain :=
  fun _ => inferInstanceAs (Decidable (_ ∧ _))

inductive SpellsSigns : List UInt8 → List Sign → Prop where
  | nil : SpellsSigns [] []
  | plain {byte : UInt8} {rest : List UInt8} {signs : List Sign} (isPlain : IsPlain byte)
    (spells : SpellsSigns rest signs) : SpellsSigns (byte :: rest) (.byte byte :: signs)
  | short {letter byte : UInt8} {rest : List UInt8} {signs : List Sign}
    (escape : shortEscape? letter = some byte) (spells : SpellsSigns rest signs) :
    SpellsSigns (92 :: letter :: rest) (.byte byte :: signs)
  | unit {a b c d : UInt8} {unit : Nat} {rest : List UInt8} {signs : List Sign}
    (digits : hexUnit? a b c d = some unit) (spells : SpellsSigns rest signs) :
    SpellsSigns (92 :: 117 :: a :: b :: c :: d :: rest) (.unit unit :: signs)

def isLead (unit : Nat) : Bool :=
  0xd800 ≤ unit && unit ≤ 0xdbff

def isTrail (unit : Nat) : Bool :=
  0xdc00 ≤ unit && unit ≤ 0xdfff

def pointBytes (point : Nat) : List UInt8 :=
  String.utf8EncodeChar (Char.ofNat point)

/-- The bytes of what the signs say, if no half of a surrogate pair stands alone. -/
def Sign.bytes? : List Sign → Option (List UInt8)
  | [] => some []
  | .byte value :: signs => (bytes? signs).map (value :: ·)
  | .unit lead :: .unit trail :: signs =>
    if isLead lead && isTrail trail then
      (bytes? signs).map (pointBytes ((lead - 0xd800) * 0x400 + (trail - 0xdc00) + 0x10000) ++ ·)
    else if isLead lead || isTrail lead then none
    else (bytes? (.unit trail :: signs)).map (pointBytes lead ++ ·)
  | .unit code :: signs =>
    if isLead code || isTrail code then none else (bytes? signs).map (pointBytes code ++ ·)

def Sign.text? (signs : List Sign) : Option String :=
  (bytes? signs).bind fun bytes => String.fromUTF8? bytes.toByteArray

inductive SpellsMark : List UInt8 → Mark → Prop where
  | openArray : SpellsMark [91] .openArray
  | closeArray : SpellsMark [93] .closeArray
  | openObject : SpellsMark [123] .openObject
  | closeObject : SpellsMark [125] .closeObject
  | comma : SpellsMark [44] .comma
  | colon : SpellsMark [58] .colon
  | null : SpellsMark [110, 117, 108, 108] (.atom .null)
  | true : SpellsMark [116, 114, 117, 101] (.atom (.bool true))
  | false : SpellsMark [102, 97, 108, 115, 101] (.atom (.bool false))
  | number {text : NumberText} {exponent : List UInt8} (wellFormed : text.WellFormed)
    (spells : SpellsExponent exponent text.exponent) :
    SpellsMark (signBytes text.negative ++ (text.whole ++ (fractionBytes text.fraction ++ exponent)))
      (.atom (.number (text.value 0 0).toOption))
  | string {bytes : List UInt8} {signs : List Sign} (spells : SpellsSigns bytes signs) :
    SpellsMark (34 :: (bytes ++ [34])) (.atom (.string (Sign.text? signs)))

def Blank (bytes : List UInt8) : Prop :=
  ∀ byte ∈ bytes, isBlank byte = true

theorem blank_nil : Blank [] := by
  simp [Blank]

/-- The spellings of words, with blanks before, between and behind them. -/
inductive SpellsMarks : List UInt8 → List Mark → Prop where
  | finish {gap : List UInt8} (blank : Blank gap) : SpellsMarks gap []
  | mark {gap front behind : List UInt8} {mark : Mark} {marks : List Mark} (blank : Blank gap)
    (first : SpellsMark front mark) (rest : SpellsMarks behind marks) :
    SpellsMarks (gap ++ (front ++ behind)) (mark :: marks)

def Outline.SpelledBy (outline : Outline) (bytes : List UInt8) : Prop :=
  SpellsMarks bytes outline.marks

end Admission.Json
