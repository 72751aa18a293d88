import Admission.Json.Pointer
import Admission.Proofs.Text.Digits

/-! The text of a pointer reads back, whatever characters its steps have, and so does that of an
index. -/

set_option autoImplicit false

namespace Admission.Json.Pointer

/-- The text with the tildes still escaped but not the slashes. -/
def escapeTildes (text : List Char) : List Char :=
  text.flatMap fun c => if c = '~' then ['~', '0'] else [c]

theorem replace_cons {escaped char c : Char} (rest : List Char) (plain : c ≠ '~') :
    unescape.replace escaped char (c :: rest) = c :: unescape.replace escaped char rest := by
  rw [unescape.replace]
  rintro c rest ⟨rfl⟩
  exact absurd rfl plain

theorem replace_slashes (text : List Char) :
    unescape.replace '1' '/' (escape text) = escapeTildes text := by
  induction text with
  | nil => rfl
  | cons c text ih =>
    simp only [escape, escapeTildes, List.flatMap_cons] at ih ⊢
    by_cases tilde : c = '~'
    · subst tilde
      simp only [if_true, List.cons_append, List.nil_append]
      rw [unescape.replace, if_neg (by decide), replace_cons _ (by decide), ih]
    · by_cases slash : c = '/'
      · subst slash
        simp only [if_neg tilde, if_true, List.cons_append, List.nil_append]
        rw [unescape.replace, if_pos rfl, ih]
      · simp only [if_neg tilde, if_neg slash, List.cons_append, List.nil_append]
        rw [replace_cons _ tilde, ih]

theorem replace_tildes (text : List Char) :
    unescape.replace '0' '~' (escapeTildes text) = text := by
  induction text with
  | nil => rfl
  | cons c text ih =>
    simp only [escapeTildes, List.flatMap_cons] at ih ⊢
    by_cases tilde : c = '~'
    · subst tilde
      simp only [if_true, List.cons_append, List.nil_append]
      rw [unescape.replace, if_pos rfl, ih]
    · simp only [if_neg tilde, List.cons_append, List.nil_append]
      rw [replace_cons _ tilde, ih]

theorem unescape_escape (text : List Char) : unescape (escape text) = text := by
  rw [unescape, replace_slashes, replace_tildes]

theorem slash_not_mem_escape (text : List Char) : '/' ∉ escape text := by
  intro mem
  obtain ⟨c, -, mem⟩ := List.mem_flatMap.1 mem
  by_cases tilde : c = '~'
  · simp [tilde] at mem
  · by_cases slash : c = '/'
    · simp [slash] at mem
    · simp only [if_neg tilde, if_neg slash, List.mem_singleton] at mem
      exact slash mem.symm

theorem splitSlashes_append {part : List Char} (plain : '/' ∉ part) (rest before : List Char) :
    splitSlashes (part ++ '/' :: rest) before = (before.reverse ++ part) :: splitSlashes rest [] := by
  induction part generalizing before with
  | nil => simp [splitSlashes]
  | cons c part ih =>
    rw [List.mem_cons, not_or] at plain
    simp [splitSlashes, Ne.symm plain.1, ih plain.2]

theorem splitSlashes_plain {part : List Char} (plain : '/' ∉ part) (before : List Char) :
    splitSlashes part before = [before.reverse ++ part] := by
  induction part generalizing before with
  | nil => simp [splitSlashes]
  | cons c part ih =>
    rw [List.mem_cons, not_or] at plain
    simp [splitSlashes, Ne.symm plain.1, ih plain.2]

theorem toList_text (pointer : Pointer) :
    pointer.text.toList = pointer.flatMap fun step => '/' :: escape step.toList := by
  simp [text, String.toList_join, List.flatMap_map]

theorem splitSlashes_steps (step : String) (pointer : Pointer) :
    splitSlashes (escape step.toList ++ pointer.flatMap fun step => '/' :: escape step.toList) [] =
      (step :: pointer).map fun step => escape step.toList := by
  induction pointer generalizing step with
  | nil => simp [splitSlashes_plain (slash_not_mem_escape step.toList)]
  | cons next pointer ih =>
    rw [List.flatMap_cons, List.cons_append,
      splitSlashes_append (slash_not_mem_escape step.toList), ih]
    simp

theorem ofText?_text (pointer : Pointer) : ofText? pointer.text = some pointer := by
  cases pointer with
  | nil => rfl
  | cons step pointer =>
    rw [ofText?, toList_text, List.flatMap_cons, List.cons_append]
    simp only [splitSlashes_steps, List.map_map]
    simp [Function.comp_def, unescape_escape]

theorem index?_toString (index : Nat) : index? (toString index) = some index := by
  have digits : (toString index).toList = Nat.toDigits 10 index := by simp
  have noZero : (decide (1 < (Nat.toDigits 10 index).length) &&
      decide ((Nat.toDigits 10 index).head? = some '0')) = false := by
    rcases Nat.eq_zero_or_pos index with rfl | pos
    · rfl
    · simp [Text.head?_toDigits_ne_zero pos]
  rw [index?, digits]
  simp only [noZero, Text.all_isDigit_toDigits, List.isEmpty_eq_false_iff.2 Nat.toDigits_ne_nil]
  simpa [Nat.ofDigitChars_eq_foldl] using Nat.ofDigitChars_ten_toDigits (n := index)

end Admission.Json.Pointer
