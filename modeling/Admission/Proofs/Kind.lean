import Mathlib.Data.List.DropRight
import Admission.Kind

/-! How the name of a kind is written. Slashes join its parts, and slashes and blanks are cut off at
the ends: the empty parts at the ends are skipped that way. An empty part between two others is not, and
a part at an end loses the slashes and blanks that it has there itself. -/

set_option autoImplicit false

namespace Admission.GroupVersionKind

/-- A text that neither begins nor ends with a slash or a blank. -/
structure Bare (text : List Char) : Prop where
  first : ∀ c ∈ text.head?, c ≠ '/' ∧ c ≠ ' '
  last : ∀ c ∈ text.getLast?, c ≠ '/' ∧ c ≠ ' '

/-- What is left of a text without the slashes and blanks around it. -/
structure Leaves (text kept : String) : Prop where
  bare : Bare kept.toList
  around : ∃ before behind : List Char, text.toList = before ++ kept.toList ++ behind ∧
    (∀ c ∈ before, c = '/' ∨ c = ' ') ∧ ∀ c ∈ behind, c = '/' ∨ c = ' '

theorem isTrimmed_iff {c : Char} : isTrimmed c = true ↔ c = '/' ∨ c = ' ' := by
  simp [isTrimmed]

theorem isTrimmed_eq_false_iff {c : Char} : isTrimmed c = false ↔ c ≠ '/' ∧ c ≠ ' ' := by
  simp [isTrimmed]

def trim (text : List Char) : List Char :=
  (text.dropWhile isTrimmed).rdropWhile isTrimmed

/-- What trimming drops stands in front of what it keeps and behind it. -/
theorem exists_trim_surrounded (text : List Char) :
    ∃ before behind, text = before ++ trim text ++ behind ∧
      (∀ c ∈ before, isTrimmed c = true) ∧ ∀ c ∈ behind, isTrimmed c = true := by
  refine ⟨text.takeWhile isTrimmed, (text.dropWhile isTrimmed).rtakeWhile isTrimmed, ?_,
    fun c => List.mem_takeWhile_imp, fun c => List.mem_rtakeWhile_imp⟩
  rw [trim, List.append_assoc, List.rdropWhile_append_rtakeWhile, List.takeWhile_append_dropWhile]

theorem trim_surrounded {before behind : List Char} (text : List Char)
    (before_cut : ∀ c ∈ before, isTrimmed c = true) (behind_cut : ∀ c ∈ behind, isTrimmed c = true) :
    trim (before ++ text ++ behind) = trim text := by
  have nothing : behind.dropWhile isTrimmed = [] := List.dropWhile_eq_nil_iff.2 behind_cut
  have reversed : ∀ c ∈ behind.reverse, isTrimmed c = true := by simpa using behind_cut
  rw [trim, trim, List.append_assoc, List.dropWhile_append_of_pos before_cut, List.dropWhile_append]
  split
  next empty => rw [nothing, List.isEmpty_iff.1 empty]
  next => rw [List.rdropWhile, List.reverse_append, List.dropWhile_append_of_pos reversed,
    List.rdropWhile]

theorem Bare.trim_eq {text : List Char} (bare : Bare text) : trim text = text := by
  cases text with
  | nil => rfl
  | cons c rest =>
    have first : isTrimmed c = false := isTrimmed_eq_false_iff.2 (bare.first c rfl)
    have last := isTrimmed_eq_false_iff.2
      (bare.last _ (List.getLast?_eq_some_getLast (List.cons_ne_nil c rest)))
    rw [trim, List.dropWhile_cons_of_neg (by simp [first]), List.rdropWhile_eq_self_iff]
    exact fun _ => by simp [last]

theorem bare_trim (text : List Char) : Bare (trim text) where
  first c head := by
    have stops := List.head?_dropWhile_not isTrimmed text
    rw [← List.rdropWhile_append_rtakeWhile (p := isTrimmed) (l := text.dropWhile isTrimmed),
      ← trim, List.head?_append, Option.mem_def.1 head] at stops
    exact isTrimmed_eq_false_iff.1 stops
  last c last := by
    obtain ⟨ne, rfl⟩ := List.mem_getLast?_eq_getLast last
    exact isTrimmed_eq_false_iff.1 (Bool.not_eq_true _ ▸ List.rdropWhile_last_not isTrimmed _ ne)

theorem leaves_iff {text kept : String} :
    Leaves text kept ↔ String.ofList (trim text.toList) = kept := by
  constructor
  · rintro ⟨bare, before, behind, split, before_cut, behind_cut⟩
    rw [split, trim_surrounded _ (fun c mem => isTrimmed_iff.2 (before_cut c mem))
      (fun c mem => isTrimmed_iff.2 (behind_cut c mem)), bare.trim_eq, String.ofList_toList]
  · rintro rfl
    obtain ⟨before, behind, split, before_cut, behind_cut⟩ := exists_trim_surrounded text.toList
    exact ⟨by simpa using bare_trim text.toList, before, behind, by simpa using split,
      fun c mem => isTrimmed_iff.1 (before_cut c mem), fun c mem => isTrimmed_iff.1 (behind_cut c mem)⟩

theorem trim_intercalate_empty_cons (parts : List String) :
    trim ("/".intercalate ("" :: parts)).toList = trim ("/".intercalate parts).toList := by
  cases parts with
  | nil => simp
  | cons part parts =>
    have cut : trim (['/'] ++ ("/".intercalate (part :: parts)).toList ++ []) =
        trim ("/".intercalate (part :: parts)).toList :=
      trim_surrounded _ (by simp [isTrimmed]) (by simp)
    simpa using cut

theorem trim_intercalate_append_empty (parts : List String) :
    trim ("/".intercalate (parts ++ [""])).toList = trim ("/".intercalate parts).toList := by
  cases parts with
  | nil => simp
  | cons part parts =>
    have cut : trim ([] ++ ("/".intercalate (part :: parts)).toList ++ ['/']) =
        trim ("/".intercalate (part :: parts)).toList :=
      trim_surrounded _ (by simp) (by simp [isTrimmed])
    rw [String.intercalate_append_of_ne_nil (List.cons_ne_nil _ _) (List.cons_ne_nil _ _)]
    simpa using cut

theorem trim_intercalate_dropWhile (parts : List String) :
    trim ("/".intercalate (parts.dropWhile (· = ""))).toList =
      trim ("/".intercalate parts).toList := by
  induction parts with
  | nil => rfl
  | cons part parts ih =>
    by_cases empty : part = ""
    · rw [List.dropWhile_cons_of_pos (by simp [empty]), ih, empty, trim_intercalate_empty_cons]
    · rw [List.dropWhile_cons_of_neg (by simp [empty])]

theorem trim_intercalate_rdropWhile (parts : List String) :
    trim ("/".intercalate (parts.rdropWhile (· = ""))).toList =
      trim ("/".intercalate parts).toList := by
  induction parts using List.reverseRecOn with
  | nil => rfl
  | append_singleton parts part ih =>
    by_cases empty : part = ""
    · rw [List.rdropWhile_concat_pos _ _ _ (by simp [empty]), ih, empty,
        trim_intercalate_append_empty]
    · rw [List.rdropWhile_concat_neg _ _ _ (by simp [empty])]

def enclosed (parts : List String) : List String :=
  (parts.dropWhile (· = "")).rdropWhile (· = "")

theorem trim_intercalate_enclosed (parts : List String) :
    trim ("/".intercalate (enclosed parts)).toList = trim ("/".intercalate parts).toList := by
  rw [enclosed, trim_intercalate_rdropWhile, trim_intercalate_dropWhile]

def parts (name : GroupVersionKind) : List String :=
  [name.group, name.version, name.kind]

theorem text_eq_trim (name : GroupVersionKind) :
    name.text = String.ofList (trim ("/".intercalate name.parts).toList) := by
  simp [text, parts, trim, List.rdropWhile, String.append_assoc]

theorem leaves_text (name : GroupVersionKind) :
    Leaves ("/".intercalate (enclosed name.parts)) name.text :=
  leaves_iff.2 (by rw [trim_intercalate_enclosed, text_eq_trim])

theorem enclosed_parts {name : GroupVersionKind}
    (gapless : name.version ≠ "" ∨ name.group = "" ∨ name.kind = "") :
    enclosed name.parts = name.parts.filter (· ≠ "") := by
  obtain ⟨group, version, kind⟩ := name
  by_cases no_group : group = "" <;> by_cases no_version : version = "" <;>
    by_cases no_kind : kind = "" <;>
    simp_all [enclosed, parts, List.rdropWhile]

theorem bare_between_iff {front back : String} (front_ne : front ≠ "") (back_ne : back ≠ "")
    (middle : String) :
    Bare (front ++ middle ++ back).toList ↔
      (∀ c ∈ front.toList.head?, c ≠ '/' ∧ c ≠ ' ') ∧ ∀ c ∈ back.toList.getLast?, c ≠ '/' ∧ c ≠ ' ' := by
  have head : (front ++ middle ++ back).toList.head? = front.toList.head? := by
    rw [String.append_assoc, String.toList_append,
      List.head?_append_of_ne_nil _ (by simpa using front_ne)]
  have last : (front ++ middle ++ back).toList.getLast? = back.toList.getLast? := by
    rw [String.toList_append, List.getLast?_append_of_ne_nil _ (by simpa using back_ne)]
  constructor
  · intro bare
    exact ⟨head ▸ bare.first, last ▸ bare.last⟩
  · rintro ⟨first_bare, last_bare⟩
    exact ⟨head ▸ first_bare, last ▸ last_bare⟩

/-- Between a group and a kind the place of a missing version is kept. -/
theorem text_of_no_version {group kind : String} (group_ne : group ≠ "") (kind_ne : kind ≠ "")
    (bare : Bare (group ++ "/" ++ kind).toList) :
    text ⟨group, "", kind⟩ = group ++ "//" ++ kind := by
  have ends := (bare_between_iff group_ne kind_ne "/").1 bare
  have joined : "/".intercalate (parts ⟨group, "", kind⟩) = group ++ "//" ++ kind := by
    rw [← String.toList_inj]
    simp [parts]
  rw [text_eq_trim, joined, ((bare_between_iff group_ne kind_ne "//").2 ends).trim_eq,
    String.ofList_toList]

/-- A name is written as its parts from the first to the last that is not empty, joined by slashes, and
without the slashes and blanks around the whole. These are the parts that are not empty, each as it is,
exactly if these neither begin nor end with a slash or a blank and no version is missing between a group
and a kind. -/
theorem text_skips_empty_iff (name : GroupVersionKind) :
    Leaves ("/".intercalate (enclosed name.parts)) name.text ∧
      (name.text = "/".intercalate (name.parts.filter (· ≠ "")) ↔
        Bare ("/".intercalate (name.parts.filter (· ≠ ""))).toList ∧
          (name.version ≠ "" ∨ name.group = "" ∨ name.kind = "")) := by
  have leaves := leaves_text name
  refine ⟨leaves, ?_, ?_⟩
  · intro skips
    have bare := skips ▸ leaves.bare
    refine ⟨bare, ?_⟩
    -- in a gap the text has one slash more than the parts that are told
    by_contra gap
    obtain ⟨group, version, kind⟩ := name
    simp only [not_or, not_not] at gap
    obtain ⟨rfl, group_ne, kind_ne⟩ := gap
    have joined : "/".intercalate ((parts ⟨group, "", kind⟩).filter (· ≠ "")) =
        group ++ "/" ++ kind := by
      simp [parts, group_ne, kind_ne]
    rw [joined] at skips bare
    rw [text_of_no_version group_ne kind_ne bare] at skips
    have lengths : "//".length = "/".length := by simpa using congrArg String.length skips
    exact absurd lengths (by decide)
  · rintro ⟨bare, gapless⟩
    rw [enclosed_parts gapless, leaves_iff, bare.trim_eq, String.ofList_toList] at leaves
    exact leaves.symm

/-- A missing version is not skipped between a group and a kind. -/
theorem missing_version_leaves_slash :
    text ⟨"apps", "", "Deployment"⟩ = "apps//Deployment" ∧
      "/".intercalate ((parts ⟨"apps", "", "Deployment"⟩).filter (· ≠ "")) = "apps/Deployment" ∧
      text ⟨"apps", "", "Deployment"⟩ ≠
        "/".intercalate ((parts ⟨"apps", "", "Deployment"⟩).filter (· ≠ "")) := by
  decide

/-- A kind loses a slash of its own. -/
example : text ⟨"", "v1", "Pod/"⟩ = "v1/Pod" := by decide

end Admission.GroupVersionKind
