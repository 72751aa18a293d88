import Admission.Proofs.Json.Grammar

/-! The words into which a text of the grammar is scanned. They are those that the text says, whatever
stands between them and however they are spelled. -/

set_option autoImplicit false

namespace Admission.Json

namespace Sign

theorem bytes?_trail {unit : Nat} (trail : isTrail unit = true) (signs : List Sign) :
    bytes? (.unit unit :: signs) = none := by
  have noLead : isLead unit = false := by grind [isLead, isTrail]
  cases signs with
  | nil => simp [bytes?, trail]
  | cons sign signs => cases sign <;> simp [bytes?, trail, noLead]

theorem bytes?_point {unit : Nat} (noLead : isLead unit = false) (noTrail : isTrail unit = false)
    (signs : List Sign) :
    bytes? (.unit unit :: signs) = (bytes? signs).map (pointBytes unit ++ ·) := by
  cases signs with
  | nil => simp [bytes?, noLead, noTrail]
  | cons sign signs => cases sign <;> simp [bytes?, noLead, noTrail]

theorem bytes?_lead {unit : Nat} (lead : isLead unit = true) {signs : List Sign}
    (alone : ∀ trail more, signs = .unit trail :: more → isTrail trail = false) :
    bytes? (.unit unit :: signs) = none := by
  cases signs with
  | nil => simp [bytes?, lead]
  | cons sign signs =>
    cases sign with
    | byte value => simp [bytes?, lead]
    | unit trail => simp [bytes?, lead, alone trail signs rfl]

end Sign

theorem pushChar_eq (content : ByteArray) (point : Nat) :
    pushChar content point = content ++ (pointBytes point).toByteArray := by
  rw [pushChar, String.toUTF8_eq_toByteArray]
  congr 1
  rw [String.singleton_eq_ofList, String.toByteArray_ofList, List.utf8Encode]
  simp [pointBytes]

/-- What a string says behind content that is known, or lost. -/
def textBehind (met : Option ByteArray) (signs : List Sign) : Option String :=
  met.bind fun met => (Sign.bytes? signs).bind fun more => String.fromUTF8? (met ++ more.toByteArray)

theorem push_append (content : ByteArray) (byte : UInt8) (plain : List UInt8) :
    content.push byte ++ plain.toByteArray = content ++ (byte :: plain).toByteArray := by
  apply ByteArray.ext
  simp

theorem textBehind_byte (met : Option ByteArray) (byte : UInt8) (signs : List Sign) :
    textBehind met (.byte byte :: signs) = textBehind (met.map (·.push byte)) signs := by
  cases met <;> cases bytes : Sign.bytes? signs <;>
    simp [textBehind, Sign.bytes?, bytes, push_append]

theorem textBehind_none {met : Option ByteArray} {signs : List Sign}
    (bytes : Sign.bytes? signs = none) : textBehind met signs = none := by
  cases met <;> simp [textBehind, bytes]

theorem textBehind_push {signs more : List Sign} {point : Nat}
    (bytes : Sign.bytes? signs = (Sign.bytes? more).map (pointBytes point ++ ·))
    (met : Option ByteArray) :
    textBehind met signs = textBehind (met.map (pushChar · point)) more := by
  cases met <;> cases rest : Sign.bytes? more <;>
    simp [textBehind, bytes, rest, pushChar_eq, List.toByteArray_append, ByteArray.append_assoc]

theorem Content.toOption_text (content : Content) (source : List UInt8) (start : Nat) :
    (content.text source start).toOption = textBehind content.toOption [] := by
  cases content with
  | error fault => rfl
  | ok bytes =>
    simp only [Content.text, Except.bind, textBehind, Sign.bytes?, Except.toOption, Option.bind_some,
      List.toByteArray_nil, ByteArray.append_empty]
    cases String.fromUTF8? bytes <;> rfl

theorem Content.toOption_fail (content : Content) (reason : Reason) (offset : Nat) :
    (content.fail reason offset).toOption = none := by
  cases content <;> rfl

theorem Content.toOption_map (content : Content) (f : ByteArray → ByteArray) :
    (content.map f).toOption = content.toOption.map f := by
  cases content <;> rfl

/-- What a sign makes of the half of a surrogate pair that stands open and of the content before it;
it ends at `after`. -/
def Sign.step (sign : Sign) (lead : Option Nat) (content : Content) (after : Nat) :
    Option Nat × Content :=
  match sign, lead with
  | .byte value, none => (none, content.map (·.push value))
  | .byte _, some _ => (none, content.fail .endOfSurrogate after)
  | .unit code, some high =>
    if isTrail code then
      (none, content.map (pushChar · ((high - 0xd800) * 0x400 + (code - 0xdc00) + 0x10000)))
    else (none, content.fail .loneSurrogate after)
  | .unit code, none =>
    if isTrail code then (none, content.fail .loneSurrogate after)
    else if isLead code then (some code, content)
    else (none, content.map (pushChar · code))

theorem Sign.step_leads (sign : Sign) (lead : Option Nat) (content : Content) (after : Nat) :
    ∀ unit ∈ (sign.step lead content after).1, isLead unit = true := by
  intro unit mem
  cases sign <;> cases lead <;> grind [Sign.step]

theorem textBehind_step (sign : Sign) {lead : Option Nat} (leads : ∀ unit ∈ lead, isLead unit = true)
    (content : Content) (after : Nat) (signs : List Sign) :
    textBehind (sign.step lead content after).2.toOption
        ((sign.step lead content after).1.toList.map .unit ++ signs) =
      textBehind content.toOption (lead.toList.map .unit ++ sign :: signs) := by
  -- a step either fails, and then the signs have no bytes, or pushes one point
  have failed {reason : Reason} {signs' : List Sign} (bytes : Sign.bytes? signs' = none) :
      textBehind (content.fail reason after).toOption signs = textBehind content.toOption signs' := by
    rw [content.toOption_fail]
    exact (textBehind_none bytes).symm
  have pushed {point : Nat} {signs' : List Sign}
      (bytes : Sign.bytes? signs' = (Sign.bytes? signs).map (pointBytes point ++ ·)) :
      textBehind (content.map (pushChar · point)).toOption signs =
        textBehind content.toOption signs' := by
    rw [Content.toOption_map]
    exact (textBehind_push bytes _).symm
  cases lead with
  | none =>
    cases sign with
    | byte byte =>
      exact (congrArg (textBehind · signs) (content.toOption_map _)).trans
        (textBehind_byte content.toOption byte signs).symm
    | unit unit =>
      simp only [Sign.step]
      split
      · rename_i trail
        exact failed (Sign.bytes?_trail trail signs)
      · split
        · rfl
        · rename_i noTrail noLead
          rw [Bool.not_eq_true] at noTrail noLead
          exact pushed (Sign.bytes?_point noLead noTrail signs)
  | some high =>
    have highLead := leads high rfl
    cases sign with
    | byte byte => exact failed (Sign.bytes?_lead highLead (by simp))
    | unit unit =>
      simp only [Sign.step]
      split
      · rename_i trail
        exact pushed (by simp [Sign.bytes?, highLead, trail])
      · rename_i noTrail
        rw [Bool.not_eq_true] at noTrail
        exact failed (Sign.bytes?_lead highLead (by rintro trail more ⟨⟩; exact noTrail))

section

variable (source : List UInt8) (start : Nat) (rest : List UInt8) (offset : Nat)
  (lead : Option Nat) (content : Content)

theorem scanString_plain {byte : UInt8} (plain : IsPlain byte) :
    scanString source start (byte :: rest) offset lead content =
      scanString source start rest (offset + 1) ((Sign.byte byte).step lead content (offset + 1)).1
        ((Sign.byte byte).step lead content (offset + 1)).2 := by
  obtain ⟨least, noQuote, noEscape⟩ := plain
  cases lead <;> simp [scanString, noEscape, UInt8.not_lt.2 least, Sign.step]

theorem scanString_short {letter byte : UInt8} (escape : shortEscape? letter = some byte) :
    scanString source start (92 :: letter :: rest) offset lead content =
      scanString source start rest (offset + 2) ((Sign.byte byte).step lead content (offset + 2)).1
        ((Sign.byte byte).step lead content (offset + 2)).2 := by
  have noUnit : letter ≠ 117 := by
    rintro rfl
    cases escape
  cases lead <;> simp [scanString, noUnit, escape, Sign.step]

theorem scanString_unit {a b c d : UInt8} {unit : Nat} (digits : hexUnit? a b c d = some unit) :
    scanString source start (92 :: 117 :: a :: b :: c :: d :: rest) offset lead content =
      scanString source start rest (offset + 6) ((Sign.unit unit).step lead content (offset + 6)).1
        ((Sign.unit unit).step lead content (offset + 6)).2 := by
  cases lead <;>
    grind [scanString, Sign.step, isTrail, isLead]

end

/-- Signs up to the closing quote are scanned to what they say. -/
theorem scanString_signs {bytes : List UInt8} {signs : List Sign} (spells : SpellsSigns bytes signs)
    (source : List UInt8) (start : Nat) (rest : List UInt8) (offset : Nat) (lead : Option Nat)
    (leads : ∀ unit ∈ lead, isLead unit = true) (content : Content) : ∃ value stop,
      scanString source start (bytes ++ 34 :: rest) offset lead content =
        ⟨.string value, stop, rest⟩ ∧
      value.toOption = textBehind content.toOption (lead.toList.map .unit ++ signs) := by
  induction spells generalizing offset lead content with
  | nil =>
    refine ⟨_, offset + 1, rfl, ?_⟩
    cases lead with
    | none => exact content.toOption_text source start
    | some unit =>
      have lone : Sign.bytes? [.unit unit] = none := Sign.bytes?_lead (leads unit rfl) (by simp)
      rw [Content.toOption_text, if_pos Option.isSome_some, Content.toOption_fail]
      exact (textBehind_none lone).symm
  | plain isPlain _ ih =>
    obtain ⟨value, stop, scanned, text⟩ := ih (offset + 1) _ (Sign.step_leads _ _ _ _) _
    exact ⟨value, stop, (scanString_plain _ _ _ _ _ _ isPlain).trans scanned,
      text.trans (textBehind_step _ leads ..)⟩
  | short escape _ ih =>
    obtain ⟨value, stop, scanned, text⟩ := ih (offset + 2) _ (Sign.step_leads _ _ _ _) _
    exact ⟨value, stop, (scanString_short _ _ _ _ _ _ escape).trans scanned,
      text.trans (textBehind_step _ leads ..)⟩
  | unit digits _ ih =>
    obtain ⟨value, stop, scanned, text⟩ := ih (offset + 6) _ (Sign.step_leads _ _ _ _) _
    exact ⟨value, stop, (scanString_unit _ _ _ _ _ _ digits).trans scanned,
      text.trans (textBehind_step _ leads ..)⟩

def Word.mark? : Word → Option Mark
  | .openArray => some .openArray
  | .closeArray => some .closeArray
  | .openObject => some .openObject
  | .closeObject => some .closeObject
  | .comma => some .comma
  | .colon => some .colon
  | .null => some (.atom .null)
  | .bool value => some (.atom (.bool value))
  | .number value => some (.atom (.number value.toOption))
  | .string value => some (.atom (.string value.toOption))
  | .brokenString _ | .broken _ | .finish => none

/-- Only the faults of a number tell where it stands. -/
theorem NumberText.toOption_value (text : NumberText) (start stop : Nat) :
    (text.value start stop).toOption = (text.value 0 0).toOption := by
  simp only [NumberText.value]
  repeat' split
  all_goals rfl

theorem scanWord_digit {byte : UInt8} (digit : isDigit byte = true) (rest : List UInt8)
    (offset : Nat) : scanWord byte rest offset = scanNumber false (byte :: rest) offset := by
  unfold scanWord
  split
  case h_12 => rw [if_pos digit]
  all_goals cases digit

theorem isBlank_of_isDigit {byte : UInt8} (digit : isDigit byte = true) : isBlank byte = false := by
  cases blank : isBlank byte with
  | false => rfl
  | true => rcases eq_of_isBlank blank with rfl | rfl | rfl | rfl <;> cases digit

theorem scanLiteral_append {word : Word} {letters : List UInt8} (offset : Nat) (rest : List UInt8) :
    scanLiteral word letters (letters ++ rest) offset = ⟨word, offset + letters.length, rest⟩ := by
  induction letters generalizing offset with
  | nil => rfl
  | cons letter letters ih =>
    rw [List.cons_append, scanLiteral, if_pos rfl, ih, List.length_cons, Nat.add_assoc,
      Nat.add_comm 1]

def ScansWord (front : List UInt8) (mark : Mark) (rest : List UInt8) : Prop :=
  ∃ first more, front = first :: more ∧ isBlank first = false ∧ ∀ offset, ∃ word stop,
    scanWord first (more ++ rest) offset = ⟨word, stop, rest⟩ ∧ word.mark? = some mark

theorem scansWord_number {text : NumberText} {exponent : List UInt8} (wellFormed : text.WellFormed)
    (spells : SpellsExponent exponent text.exponent) {rest : List UInt8} (stops : Stops rest) :
    ScansWord (signBytes text.negative ++ (text.whole ++ (fractionBytes text.fraction ++ exponent)))
      (.atom (.number (text.value 0 0).toOption)) rest := by
  have means (start stop : Nat) : (Word.number (text.value start stop)).mark? =
      some (.atom (.number (text.value 0 0).toOption)) := by
    rw [Word.mark?, text.toOption_value]
  have scanned := scanNumber_spelled wellFormed spells stops
  -- the word of a negative number begins with the sign, that of any other with a digit
  cases negative : text.negative with
  | true =>
    refine ⟨45, text.whole ++ (fractionBytes text.fraction ++ exponent), rfl, rfl, fun offset => ?_⟩
    obtain ⟨start, stop, scanned⟩ := scanned (offset + 1)
    refine ⟨_, stop, ?_, means start stop⟩
    rw [List.append_assoc, List.append_assoc, ← scanned, negative]
    rfl
  | false =>
    cases whole : text.whole with
    | nil => exact absurd whole wellFormed.whole_ne_nil
    | cons first more =>
      have digit : isDigit first = true := wellFormed.whole_digits first (by simp [whole])
      refine ⟨first, _, rfl, isBlank_of_isDigit digit, fun offset => ?_⟩
      obtain ⟨start, stop, scanned⟩ := scanned offset
      refine ⟨_, stop, ?_, means start stop⟩
      rw [scanWord_digit digit, ← scanned, negative, whole]
      simp [List.append_assoc]

theorem scansWord_string {bytes : List UInt8} {signs : List Sign} (spells : SpellsSigns bytes signs)
    (rest : List UInt8) :
    ScansWord (34 :: (bytes ++ [34])) (.atom (.string (Sign.text? signs))) rest := by
  refine ⟨34, _, rfl, rfl, fun offset => ?_⟩
  rw [List.append_assoc]
  obtain ⟨value, stop, scanned, text⟩ := scanString_signs spells (bytes ++ ([34] ++ rest))
    (offset + 1) rest (offset + 1) none (by simp) (.ok .empty)
  refine ⟨.string value, stop, scanned, ?_⟩
  rw [Word.mark?, text]
  simp [textBehind, Except.toOption, Sign.text?]

/-- A word is scanned to its end, if no number could go on there. -/
theorem scansWord_spelled {front : List UInt8} {mark : Mark} (spells : SpellsMark front mark)
    {rest : List UInt8} (stops : ∀ value, mark = .atom (.number value) → Stops rest) :
    ScansWord front mark rest := by
  cases spells with
  | number wellFormed spells => exact scansWord_number wellFormed spells (stops _ rfl)
  | string spells => exact scansWord_string spells rest
  | null | true | false =>
    exact ⟨_, _, rfl, rfl, fun offset => ⟨_, _, scanLiteral_append (offset + 1) rest, rfl⟩⟩
  | _ => exact ⟨_, _, rfl, rfl, fun offset => ⟨_, offset + 1, rfl, rfl⟩⟩

/-! ## Tokens -/

def Mark.EndsNumber : Mark → Prop
  | .comma | .closeArray | .closeObject => True
  | _ => False

/-- Behind every number stands a mark that ends it, or nothing. -/
def Separated : List Mark → Prop :=
  List.IsChain fun mark next => ∀ value, mark = .atom (.number value) → next.EndsNumber

theorem Separated.cons {mark : Mark} {marks : List Mark} (separated : Separated marks)
    (noNumber : ∀ value, mark ≠ .atom (.number value)) : Separated (mark :: marks) :=
  List.isChain_cons.2 ⟨fun _ _ value eq => absurd eq (noNumber value), separated⟩

theorem head?_itemsMarks (items : List Outline) (behind : List Mark) :
    ∀ mark ∈ (itemsMarks items ++ behind).head?, mark.EndsNumber := by
  cases items <;> simp [itemsMarks, Mark.EndsNumber]

theorem head?_membersMarks (members : List (Option String × Outline)) (behind : List Mark) :
    ∀ mark ∈ (membersMarks members ++ behind).head?, mark.EndsNumber := by
  cases members <;> simp [membersMarks, Mark.EndsNumber]

theorem separated_itemsMarks {items : List Outline} {behind : List Mark} (separated : Separated behind)
    (ih : ∀ item ∈ items, ∀ behind : List Mark, Separated behind →
      (∀ mark ∈ behind.head?, mark.EndsNumber) → Separated (item.marks ++ behind)) :
    Separated (itemsMarks items ++ behind) := by
  induction items with
  | nil => exact separated.cons (by simp)
  | cons item items rest =>
    rw [List.forall_mem_cons] at ih
    rw [itemsMarks, List.cons_append, List.append_assoc]
    exact (ih.1 _ (rest ih.2) (head?_itemsMarks items behind)).cons (by simp)

theorem separated_membersMarks {members : List (Option String × Outline)} {behind : List Mark}
    (separated : Separated behind)
    (ih : ∀ member ∈ members, ∀ behind : List Mark, Separated behind →
      (∀ mark ∈ behind.head?, mark.EndsNumber) → Separated (member.2.marks ++ behind)) :
    Separated (membersMarks members ++ behind) := by
  induction members with
  | nil => exact separated.cons (by simp)
  | cons member members rest =>
    rw [List.forall_mem_cons] at ih
    rw [membersMarks, List.cons_append, List.cons_append, List.cons_append, List.append_assoc]
    have value := ih.1 _ (rest ih.2) (head?_membersMarks members behind)
    exact ((value.cons (by simp)).cons (by simp)).cons (by simp)

theorem separated_marks (outline : Outline) {behind : List Mark} (separated : Separated behind)
    (ends : ∀ mark ∈ behind.head?, mark.EndsNumber) : Separated (outline.marks ++ behind) := by
  induction outline generalizing behind with
  | atom atom => exact List.isChain_cons.2 ⟨fun next mem _ _ => ends next mem, separated⟩
  | array items ih =>
    cases items with
    | nil => exact (separated.cons (by simp)).cons (by simp)
    | cons item items =>
      rw [List.forall_mem_cons] at ih
      rw [Outline.marks, List.cons_append, List.append_assoc]
      have rest := separated_itemsMarks separated fun item mem behind => ih.2 item mem
      exact (ih.1 rest (head?_itemsMarks items behind)).cons (by simp)
  | object members ih =>
    cases members with
    | nil => exact (separated.cons (by simp)).cons (by simp)
    | cons member members =>
      rw [List.forall_mem_cons] at ih
      rw [Outline.marks, List.cons_append, List.cons_append, List.cons_append, List.append_assoc]
      have rest := separated_membersMarks separated fun member mem behind => ih.2 member mem
      have value := ih.1 rest (head?_membersMarks members behind)
      exact ((value.cons (by simp)).cons (by simp)).cons (by simp)

theorem stops_of_blank {gap : List UInt8} (blank : Blank gap) (ne_nil : gap ≠ []) (rest : List UInt8) :
    Stops (gap ++ rest) := by
  cases gap with
  | nil => exact absurd rfl ne_nil
  | cons first gap =>
    rintro byte ⟨⟩
    exact .inl (blank first List.mem_cons_self)

theorem stops_of_spells {bytes : List UInt8} {marks : List Mark} (spells : SpellsMarks bytes marks)
    (ends : ∀ mark ∈ marks.head?, mark.EndsNumber) : Stops bytes := by
  cases spells with
  | finish blank =>
    intro byte mem
    exact .inl (blank byte (List.mem_of_mem_head? mem))
  | @mark gap front behind mark marks blank first =>
    by_cases none : gap = []
    · subst none
      cases first with
      | comma | closeArray | closeObject => simp [Stops]
      | _ => exact (ends _ rfl).elim
    · exact stops_of_blank blank none _

theorem scanTokens_blank {gap : List UInt8} (blank : Blank gap) (rest : List UInt8)
    (fuel offset : Nat) (tokens : List Token) :
    scanTokens (gap.length + fuel) (gap ++ rest) offset tokens =
      scanTokens fuel rest (offset + gap.length) tokens := by
  induction gap generalizing offset with
  | nil => simp
  | cons byte gap ih =>
    rw [Blank, List.forall_mem_cons] at blank
    rw [List.length_cons, Nat.add_right_comm, List.cons_append, scanTokens, if_pos blank.1,
      ih blank.2, Nat.add_assoc, Nat.add_comm 1]

theorem scanTokens_nil (fuel offset : Nat) (tokens : List Token) :
    scanTokens fuel [] offset tokens = ⟨offset, offset, .finish⟩ :: tokens := by
  cases fuel <;> rfl

theorem scanTokens_word {front : List UInt8} {mark : Mark} {rest : List UInt8}
    (scans : ScansWord front mark rest) (fuel offset : Nat) (tokens : List Token) :
    ∃ (token : Token) (fuel' : Nat), fuel ≤ fuel' ∧ token.word.mark? = some mark ∧
      scanTokens (front.length + fuel) (front ++ rest) offset tokens =
        scanTokens fuel' rest token.stop (token :: tokens) := by
  obtain ⟨first, more, rfl, visible, scans⟩ := scans
  obtain ⟨word, stop, scanned, means⟩ := scans offset
  refine ⟨⟨offset, stop, word⟩, more.length + fuel, Nat.le_add_left .., means, ?_⟩
  rw [List.length_cons, Nat.add_right_comm, List.cons_append, scanTokens, if_neg (by simp [visible])]
  simp only [scanned]
  cases word with
  | broken | brokenString | finish => cases means
  | _ => rfl

theorem scanTokens_spelled {bytes : List UInt8} {marks : List Mark} (spells : SpellsMarks bytes marks)
    (separated : Separated marks) (fuel offset : Nat) (tokens : List Token)
    (enough : bytes.length ≤ fuel) : ∃ (scanned : List Token) (stop : Nat),
      scanned.map (fun token => token.word.mark?) = marks.map some ∧
      scanTokens fuel bytes offset tokens =
        ⟨stop, stop, .finish⟩ :: (scanned.reverse ++ tokens) := by
  induction spells generalizing fuel offset tokens with
  | @finish gap blank =>
    obtain ⟨fuel, rfl⟩ := Nat.exists_eq_add_of_le enough
    have rest := scanTokens_blank blank [] fuel offset tokens
    rw [List.append_nil, scanTokens_nil] at rest
    exact ⟨[], _, rfl, rest⟩
  | @mark gap front behind mark marks blank first rest ih =>
    obtain ⟨next, separated⟩ := List.isChain_cons.1 separated
    have scans := scansWord_spelled first fun value number =>
      stops_of_spells rest fun mark mem => next mark mem value number
    -- the fuel bounds the bytes that are left
    obtain ⟨fuel, rfl⟩ := Nat.exists_eq_add_of_le enough
    simp only [List.length_append, Nat.add_assoc]
    rw [scanTokens_blank blank]
    obtain ⟨token, fuel', more, means, scanned⟩ :=
      scanTokens_word scans (behind.length + fuel) (offset + gap.length) tokens
    obtain ⟨others, stop, others_mean, others_scanned⟩ :=
      ih separated fuel' token.stop (token :: tokens) (by omega)
    refine ⟨token :: others, stop, by simp [means, others_mean], ?_⟩
    rw [scanned, others_scanned, List.reverse_cons, List.append_assoc, List.singleton_append]

theorem exists_tokens {outline : Outline} {bytes : List UInt8} (spelled : outline.SpelledBy bytes) :
    ∃ (scanned : List Token) (stop : Nat),
      scanned.map (fun token => token.word.mark?) = outline.marks.map some ∧
      tokens bytes = scanned ++ [⟨stop, stop, .finish⟩] := by
  have separated : Separated outline.marks := by
    have alone : Separated (outline.marks ++ []) := separated_marks outline .nil (by simp)
    rwa [List.append_nil] at alone
  obtain ⟨scanned, stop, means, eq⟩ :=
    scanTokens_spelled spelled separated bytes.length 0 [] (Nat.le_refl _)
  refine ⟨scanned, stop, means, ?_⟩
  rw [tokens, eq, List.append_nil, List.reverse_cons, List.reverse_reverse]

end Admission.Json
