import Admission.Proofs.Json.Building

/-! What any text is scanned to: words of the grammar up to the end of the text, or up to where it
breaks off. -/

set_option autoImplicit false

namespace Admission.Json

def ClosesString (bytes : List UInt8) : Prop :=
  ∃ text signs rest, bytes = text ++ 34 :: rest ∧ SpellsSigns text signs

namespace ClosesString

variable {rest : List UInt8}

theorem plain {byte : UInt8} (isPlain : IsPlain byte) (closes : ClosesString rest) :
    ClosesString (byte :: rest) := by
  obtain ⟨text, signs, behind, rfl, spells⟩ := closes
  exact ⟨_, _, behind, rfl, .plain isPlain spells⟩

theorem short {letter byte : UInt8} (escape : shortEscape? letter = some byte)
    (closes : ClosesString rest) : ClosesString (92 :: letter :: rest) := by
  obtain ⟨text, signs, behind, rfl, spells⟩ := closes
  exact ⟨_, _, behind, rfl, .short escape spells⟩

theorem unit {a b c d : UInt8} {unit : Nat} (digits : hexUnit? a b c d = some unit)
    (closes : ClosesString rest) : ClosesString (92 :: 117 :: a :: b :: c :: d :: rest) := by
  obtain ⟨text, signs, behind, rfl, spells⟩ := closes
  exact ⟨_, _, behind, rfl, .unit digits spells⟩

end ClosesString

/-- A byte is plain where a string neither ends nor is escaped nor breaks off. -/
theorem isPlain_of_cases {byte : UInt8} {rest : List UInt8} (noQuote : byte = 34 → False)
    (noEnd : byte = 92 → rest = [] → False)
    (noEscape : ∀ next behind, byte = 92 → rest = next :: behind → False) (visible : ¬ byte < 32) :
    IsPlain byte := by
  refine ⟨UInt8.not_lt.1 visible, noQuote, fun backslash => ?_⟩
  cases rest with
  | nil => exact noEnd backslash rfl
  | cons next behind => exact noEscape next behind backslash rfl

theorem closesString_or_broken (source : List UInt8) (start : Nat) (bytes : List UInt8)
    (offset : Nat) (lead : Option Nat) (content : Content) : ClosesString bytes ∨
    ∃ fault stop, scanString source start bytes offset lead content =
      ⟨.brokenString fault, stop, []⟩ := by
  fun_induction scanString source start bytes offset lead content with
  | case1 | case3 | case4 | case10 | case13 | case14 => exact .inr ⟨_, _, rfl⟩
  | case2 => exact .inl ⟨[], [], _, rfl, .nil⟩
  | case5 _ _ _ _ _ _ _ _ _ digits _ _ _ ih => exact ih.imp_left (.unit digits)
  | case6 _ _ _ _ _ _ _ _ _ digits _ _ ih => exact ih.imp_left (.unit digits)
  | case7 _ _ _ _ _ _ _ _ _ digits _ ih => exact ih.imp_left (.unit digits)
  | case8 _ _ _ _ _ _ _ _ _ digits _ _ ih => exact ih.imp_left (.unit digits)
  | case9 _ _ _ _ _ _ _ _ _ digits _ _ ih => exact ih.imp_left (.unit digits)
  | case11 _ _ _ _ _ _ _ _ _ escape _ ih => exact ih.imp_left (.short escape)
  | case12 _ _ _ _ _ _ _ _ _ escape _ ih => exact ih.imp_left (.short escape)
  | case15 _ _ _ _ _ noQuote noEnd _ _ noEscape visible _ ih =>
    exact ih.imp_left (.plain (isPlain_of_cases noQuote noEnd noEscape visible))
  | case16 _ _ _ _ _ noQuote noEnd _ _ noEscape visible _ ih =>
    exact ih.imp_left (.plain (isPlain_of_cases noQuote noEnd noEscape visible))

theorem spanDigits_eq (bytes : List UInt8) :
    spanDigits bytes [] = (bytes.takeWhile isDigit, bytes.dropWhile isDigit) := by
  have all : ∀ byte ∈ bytes.takeWhile isDigit, isDigit byte = true :=
    List.all_eq_true.1 List.all_takeWhile
  have noDigit : NoDigit (bytes.dropWhile isDigit) := by
    intro byte mem
    have head := List.head?_dropWhile_not isDigit bytes
    rw [mem] at head
    simpa using head
  have span := spanDigits_append all noDigit []
  rwa [List.takeWhile_append_dropWhile] at span

theorem exists_digits (bytes : List UInt8) : ∃ digits rest, bytes = digits ++ rest ∧
    (∀ byte ∈ digits, isDigit byte = true) ∧ spanDigits bytes [] = (digits, rest) :=
  ⟨_, _, List.takeWhile_append_dropWhile.symm, List.all_eq_true.1 List.all_takeWhile,
    spanDigits_eq bytes⟩

theorem exists_digits_cons {first : UInt8} (digit : isDigit first = true) (bytes : List UInt8) :
    ∃ digits rest, bytes = digits ++ rest ∧ (∀ byte ∈ first :: digits, isDigit byte = true) ∧
      spanDigits (first :: bytes) [] = (first :: digits, rest) := by
  obtain ⟨digits, rest, split, all, span⟩ := exists_digits bytes
  refine ⟨digits, rest, split, List.forall_mem_cons.2 ⟨digit, all⟩, ?_⟩
  rw [spanDigits_eq, Prod.mk.injEq] at span ⊢
  rw [List.takeWhile_cons_of_pos digit, List.dropWhile_cons_of_pos digit, span.1, span.2]
  exact ⟨rfl, rfl⟩

/-- What stands behind the digits of a number is its exponent and what follows, or the number breaks
off. -/
inductive Finishes (text : NumberText) (bytes : List UInt8) : Scanned → Prop where
  | number {exponent rest : List UInt8} {power : Option (Bool × List UInt8)}
    (split : bytes = exponent ++ rest) (spells : SpellsExponent exponent power)
    (digits : ∀ power' ∈ power, ∀ byte ∈ power'.2, isDigit byte = true)
    (ne_nil : ∀ power' ∈ power, power'.2 ≠ []) (start stop : Nat) :
    Finishes text bytes ⟨.number ({ text with exponent := power }.value start stop), stop, rest⟩
  | broken (fault : Break) (stop : Nat) : Finishes text bytes ⟨.broken fault, stop, []⟩

def scanPower (text : NumberText) (minus : Bool) (bytes : List UInt8) (offset : Nat) : Scanned :=
  match bytes with
  | [] => unfinishedNumber offset
  | byte :: _ =>
    if isDigit byte then
      let (digits, rest) := spanDigits bytes []
      let stop := offset + digits.length
      ⟨.number ({ text with exponent := some (minus, digits) }.value offset stop), stop, rest⟩
    else breakOff (.both .invalidNumber (offset + 1)) offset

theorem finishes_power (text : NumberText) {minus : Bool} (front : List UInt8)
    (spells : ∀ digits, SpellsExponent (front ++ digits) (some (minus, digits)))
    (bytes : List UInt8) (offset : Nat) :
    Finishes text (front ++ bytes) (scanPower text minus bytes offset) := by
  cases bytes with
  | nil => exact .broken _ _
  | cons byte bytes =>
    rw [scanPower]
    split
    · rename_i digit
      obtain ⟨digits, rest, split, all, span⟩ := exists_digits_cons digit bytes
      rw [span]
      exact .number (by simp [split]) (spells (byte :: digits)) (by rintro _ ⟨⟩; exact all)
        (by simp) _ _
    · exact .broken _ _

theorem finishes_exponent (text : NumberText) {letter : UInt8}
    (isLetter : letter = 101 ∨ letter = 69) (bytes : List UInt8) (offset : Nat) :
    Finishes text (letter :: bytes) (scanExponent text bytes offset) := by
  unfold scanExponent
  split
  rename_i minus behind offset' sign
  change Finishes text (letter :: bytes) (scanPower text minus behind offset')
  split at sign <;> cases sign
  · exact finishes_power text [letter, 43] (.signed isLetter false) _ _
  · exact finishes_power text [letter, 45] (.signed isLetter true) _ _
  · exact finishes_power text [letter] (.bare isLetter) _ _

/-- What becomes of a text: a word in front of it with what follows, or a break. -/
inductive Scans (bytes : List UInt8) : Scanned → Prop where
  | word {front rest : List UInt8} {mark : Mark} {word : Word} (split : bytes = front ++ rest)
    (spells : SpellsMark front mark) (means : word.mark? = some mark) (stop : Nat) :
    Scans bytes ⟨word, stop, rest⟩
  | broken (fault : Break) (stop : Nat) : Scans bytes ⟨.broken fault, stop, []⟩
  | brokenString (fault : Break) (stop : Nat) : Scans bytes ⟨.brokenString fault, stop, []⟩

theorem literal_or_broken (word : Word) (letters bytes : List UInt8) (offset : Nat) :
    (∃ rest, bytes = letters ++ rest) ∨
    ∃ fault stop, scanLiteral word letters bytes offset = ⟨.broken fault, stop, []⟩ := by
  induction letters generalizing bytes offset with
  | nil => exact .inl ⟨bytes, rfl⟩
  | cons letter letters ih =>
    cases bytes with
    | nil => exact .inr ⟨_, _, rfl⟩
    | cons byte bytes =>
      rw [scanLiteral]
      split
      · rename_i same
        rw [same]
        refine (ih bytes (offset + 1)).imp_left fun goesOn => ?_
        obtain ⟨rest, rfl⟩ := goesOn
        exact ⟨rest, rfl⟩
      · exact .inr ⟨_, _, rfl⟩

theorem Finishes.scans {negative : Bool} {whole : List UInt8} {fraction : Option (List UInt8)}
    (wellFormed : NumberText.WellFormed ⟨negative, whole, fraction, none⟩) {bytes : List UInt8}
    {scanned : Scanned} (finishes : Finishes ⟨negative, whole, fraction, none⟩ bytes scanned) :
    Scans (signBytes negative ++ (whole ++ (fractionBytes fraction ++ bytes))) scanned := by
  cases finishes with
  | @number exponent rest power split spells digits ne_nil start stop =>
    have all : NumberText.WellFormed ⟨negative, whole, fraction, power⟩ :=
      { wellFormed with exponent_digits := digits, exponent_ne_nil := ne_nil }
    refine .word (by simp [split]) (.number all spells) ?_ stop
    rw [Word.mark?, NumberText.toOption_value]
  | broken fault stop => exact .broken fault stop

theorem scans_afterWhole {negative : Bool} {whole : List UInt8}
    (wellFormed : NumberText.WellFormed ⟨negative, whole, none, none⟩) (bytes : List UInt8)
    (offset : Nat) : Scans (signBytes negative ++ (whole ++ bytes))
      (scanAfterWhole ⟨negative, whole, none, none⟩ bytes offset) := by
  unfold scanAfterWhole
  split
  · rename_i rest
    obtain ⟨digits, behind, split, all, span⟩ := exists_digits rest
    rw [span, split]
    have fractional (ne_nil : digits ≠ []) {scanned : Scanned}
        (finishes : Finishes ⟨negative, whole, some digits, none⟩ behind scanned) :
        Scans (signBytes negative ++ (whole ++ 46 :: (digits ++ behind))) scanned := by
      have wellFormed : NumberText.WellFormed ⟨negative, whole, some digits, none⟩ :=
        { wellFormed with
          fraction_digits := by simpa using all
          fraction_ne_nil := by simpa using ne_nil }
      exact finishes.scans wellFormed
    dsimp only
    split
    · exact .broken _ _
    · exact .broken _ _
    · rename_i ne_nil
      exact fractional ne_nil (finishes_exponent _ (.inl rfl) _ _)
    · rename_i ne_nil
      exact fractional ne_nil (finishes_exponent _ (.inr rfl) _ _)
    · rename_i ne_nil _ _ _
      exact fractional ne_nil (.number rfl .none (by simp) (by simp) _ _)
  · exact (finishes_exponent _ (.inl rfl) _ _).scans wellFormed
  · exact (finishes_exponent _ (.inr rfl) _ _).scans wellFormed
  · exact Finishes.scans wellFormed (.number rfl .none (by simp) (by simp) _ _)

theorem scans_number (negative : Bool) (bytes : List UInt8) (offset : Nat) :
    Scans (signBytes negative ++ bytes) (scanNumber negative bytes offset) := by
  have whole {digits : List UInt8} (all : ∀ byte ∈ digits, isDigit byte = true)
      (ne_nil : digits ≠ []) (noZero : digits.head? = some 48 → digits = [48]) :
      NumberText.WellFormed ⟨negative, digits, none, none⟩ :=
    ⟨all, ne_nil, noZero, by simp, by simp, by simp, by simp⟩
  unfold scanNumber
  split
  · exact .broken _ _
  · have digit : ∀ byte ∈ [(48 : UInt8)], isDigit byte = true := List.forall_mem_singleton.2 rfl
    have zero := whole digit (by simp) (by simp)
    split
    · split
      · exact .broken _ _
      · exact scans_afterWhole zero _ _
    · exact scans_afterWhole zero _ _
  · rename_i first bytes noZero
    split
    · rename_i digit
      obtain ⟨digits, rest, split, all, span⟩ := exists_digits_cons digit bytes
      rw [span, split]
      refine scans_afterWhole (whole all (by simp) fun zero => ?_) _ _
      exact (noZero (by simpa using zero)).elim
    · exact .broken _ _

theorem scans_literal {word : Word} {first : UInt8} {letters : List UInt8} {mark : Mark}
    (spells : SpellsMark (first :: letters) mark) (means : word.mark? = some mark)
    (bytes : List UInt8) (offset : Nat) :
    Scans (first :: bytes) (scanLiteral word letters bytes offset) := by
  rcases literal_or_broken word letters bytes offset with ⟨rest, rfl⟩ | ⟨fault, stop, eq⟩
  · rw [scanLiteral_append]
    exact .word rfl spells means _
  · rw [eq]
    exact .broken fault stop

theorem scans_string (bytes : List UInt8) (offset : Nat) :
    Scans (34 :: bytes) (scanString bytes offset bytes offset none (.ok .empty)) := by
  rcases closesString_or_broken bytes offset bytes offset none (.ok .empty) with closes | broken
  · obtain ⟨text, signs, rest, rfl, spells⟩ := closes
    obtain ⟨value, stop, scanned, means⟩ := scanString_signs spells (text ++ 34 :: rest) offset rest
      offset none (by simp) (.ok .empty)
    rw [scanned]
    refine .word (by simp) (.string spells) ?_ stop
    rw [Word.mark?, means]
    simp [textBehind, Except.toOption, Sign.text?]
  · obtain ⟨fault, stop, eq⟩ := broken
    rw [eq]
    exact .brokenString fault stop

theorem scans_word (byte : UInt8) (rest : List UInt8) (offset : Nat) :
    Scans (byte :: rest) (scanWord byte rest offset) := by
  unfold scanWord
  split
  · exact .word rfl .openArray rfl _
  · exact .word rfl .closeArray rfl _
  · exact .word rfl .openObject rfl _
  · exact .word rfl .closeObject rfl _
  · exact .word rfl .comma rfl _
  · exact .word rfl .colon rfl _
  · exact scans_literal .null rfl rest _
  · exact scans_literal .true rfl rest _
  · exact scans_literal .false rfl rest _
  · exact scans_string rest _
  · exact scans_number true rest _
  · split
    · exact scans_number false _ offset
    · exact .broken _ _

theorem SpellsMark.ne_nil {front : List UInt8} {mark : Mark} (spells : SpellsMark front mark) :
    front ≠ [] := by
  cases spells with
  | number wellFormed => simp [wellFormed.whole_ne_nil]
  | _ => exact List.cons_ne_nil _ _

theorem SpellsMarks.blank {byte : UInt8} {bytes : List UInt8} {marks : List Mark}
    (isBlank : isBlank byte = true) (spells : SpellsMarks bytes marks) :
    SpellsMarks (byte :: bytes) marks := by
  cases spells with
  | finish blank => exact .finish (List.forall_mem_cons.2 ⟨isBlank, blank⟩)
  | @mark gap front behind mark marks blank first rest =>
    have blanks : Blank (byte :: gap) := List.forall_mem_cons.2 ⟨isBlank, blank⟩
    exact .mark blanks first rest

/-- The words of a text are scanned up to its end, or up to a break. -/
theorem scanTokens_cases (fuel : Nat) (bytes : List UInt8) (offset : Nat) (tokens : List Token)
    (enough : bytes.length ≤ fuel) : ∃ scanned marks last,
      scanTokens fuel bytes offset tokens = last :: (scanned.reverse ++ tokens) ∧
      TokensOf scanned marks ∧ last.word.mark? = none ∧
      (last.word = .finish → SpellsMarks bytes marks) := by
  induction fuel generalizing bytes offset tokens with
  | zero =>
    obtain rfl := List.eq_nil_of_length_eq_zero (Nat.le_zero.1 enough)
    exact ⟨[], [], _, rfl, rfl, rfl, fun _ => .finish blank_nil⟩
  | succ fuel ih =>
    cases bytes with
    | nil => exact ⟨[], [], _, rfl, rfl, rfl, fun _ => .finish blank_nil⟩
    | cons byte bytes =>
      rw [List.length_cons, Nat.add_le_add_iff_right] at enough
      rw [scanTokens]
      split
      · rename_i blank
        obtain ⟨scanned, marks, last, eq, words, noMark, spells⟩ :=
          ih bytes (offset + 1) tokens enough
        exact ⟨scanned, marks, last, eq, words, noMark, fun finish => (spells finish).blank blank⟩
      · have scans := scans_word byte bytes offset
        generalize scanWord byte bytes offset = outcome at scans
        cases scans with
        | broken | brokenString =>
          exact ⟨[], [], _, rfl, rfl, rfl, fun finish => by cases finish⟩
        | @word front rest mark word split first means stop =>
          -- a word takes at least one byte, so that the rest is left enough fuel
          have nonempty := List.length_pos_iff.2 first.ne_nil
          have length := congrArg List.length split
          rw [List.length_cons, List.length_append] at length
          obtain ⟨scanned, marks, last, eq, words, noMark, spells⟩ :=
            ih rest stop (⟨offset, stop, word⟩ :: tokens) (by omega)
          refine ⟨⟨offset, stop, word⟩ :: scanned, mark :: marks, last, ?_, ?_, noMark,
            fun finish => ?_⟩
          · rw [List.reverse_cons, List.append_assoc, List.singleton_append, ← eq]
            cases word with
            | broken | brokenString | finish => cases means
            | _ => rfl
          · rw [TokensOf, List.map_cons, List.map_cons, means, words]
          · rw [split]
            exact .mark blank_nil first (spells finish)

end Admission.Json
