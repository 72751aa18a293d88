import Admission.Config
import Admission.Proofs.SortedMap

/-! Configurations and the arguments they are made of. Labels are given in texts, some of which may
share an argument: the configuration has the labels that the texts spell, the last one of each key, and
is refused for the first text that spells none. -/

set_option autoImplicit false

namespace Admission

namespace CommandLine

theorem splitEquals_of_not_mem {text : List Char} (absent : '=' ∉ text) :
    splitEquals text = (text, none) := by
  induction text with
  | nil => rfl
  | cons c text ih =>
    rw [List.mem_cons, not_or] at absent
    rw [splitEquals, if_neg (Ne.symm absent.1), ih absent.2]

theorem splitEquals_append {name : List Char} (absent : '=' ∉ name) (value : List Char) :
    splitEquals (name ++ '=' :: value) = (name, some value) := by
  induction name with
  | nil => rfl
  | cons c name ih =>
    rw [List.mem_cons, not_or] at absent
    rw [List.cons_append, splitEquals, if_neg (Ne.symm absent.1), ih absent.2]

theorem splitCommas_eq (text part : List Char) :
    splitCommas text part = (List.splitOnPPrepend (· == ',') text part).map String.ofList := by
  induction text generalizing part with
  | nil => rfl
  | cons c text ih =>
    rw [splitCommas]
    split
    · rename_i comma
      rw [List.splitOnPPrepend_cons_pos (by simp [comma]), List.map_cons, ih,
        List.splitOnP_eq_splitOnPPrepend]
    · rename_i other
      rw [ih, List.splitOnPPrepend_cons_neg (by simp [other])]

theorem splitCommas_intercalate {texts : List String} (ne : texts ≠ [])
    (plain : ∀ text ∈ texts, ',' ∉ text.toList) :
    splitCommas (",".intercalate texts).toList [] = texts := by
  have parts : (",".intercalate texts).toList.splitOn ',' = texts.map String.toList := by
    rw [String.toList_intercalate]
    refine List.splitOn_intercalate ',' (fun part mem => ?_) (by simpa using ne)
    obtain ⟨text, text_mem, rfl⟩ := List.mem_map.1 mem
    exact plain text text_mem
  rw [splitCommas_eq, ← List.splitOnP_eq_splitOnPPrepend, ← List.splitOn_eq_splitOnP, parts,
    List.map_map]
  exact (List.map_congr_left fun text _ => String.ofList_toList).trans (List.map_id texts)

def argument (name : String) (texts : List String) : String :=
  "--" ++ name ++ "=" ++ ",".intercalate texts

theorem take_many {parameter : Parameter} (many : parameter.arity = .many) {texts : List String}
    (ne : texts ≠ []) (plain : ∀ text ∈ texts, ',' ∉ text.toList) (values : Values) :
    take parameter (some (",".intercalate texts)) values =
      .ok ((parameter.name, (values.lookup parameter.name).getD [] ++ texts) :: values) := by
  simp only [take, many, valuesOf, splitCommas_intercalate ne plain, Except.map]

theorem readLong_many {parameters : List Parameter} {parameter : Parameter}
    (found : parameters.find? (·.name = parameter.name) = some parameter)
    (many : parameter.arity = .many) (unequal : '=' ∉ parameter.name.toList) {texts : List String}
    (ne : texts ≠ []) (plain : ∀ text ∈ texts, ',' ∉ text.toList) (values : Values) :
    readLong parameters { values } (parameter.name.toList ++ '=' :: (",".intercalate texts).toList) =
      .ok { values :=
        (parameter.name, (values.lookup parameter.name).getD [] ++ texts) :: values } := by
  simp only [readLong, splitEquals_append unequal, String.ofList_toList, found, many,
    Option.map_some, Reading.give, Reading.settle, bind, Except.bind, take_many many ne plain]
  rfl

structure Only (values : Values) (name : String) (texts : List String) : Prop where
  own : (values.lookup name).getD [] = texts
  other : ∀ other, other ≠ name → values.lookup other = none

theorem Only.cons {values : Values} {name : String} {texts : List String}
    (only : Only values name texts) (more : List String) : Only ((name, more) :: values) name more where
  own := by rw [List.lookup_cons, beq_self_eq_true]; rfl
  other other ne := by rw [List.lookup_cons, beq_false_of_ne ne]; exact only.other other ne

theorem readArguments_argument {parameters : List Parameter} {reading next : Reading} {name : String}
    {texts arguments : List String}
    (read : readLong parameters reading (name.toList ++ '=' :: (",".intercalate texts).toList) =
      .ok next) :
    readArguments parameters (argument name texts :: arguments) reading =
      readArguments parameters arguments next := by
  have letters : (argument name texts).toList =
      '-' :: '-' :: (name.toList ++ '=' :: (",".intercalate texts).toList) := by
    simp [argument]
  -- what stands behind the dashes is not empty
  obtain ⟨c, rest, behind⟩ : ∃ c rest,
      name.toList ++ '=' :: (",".intercalate texts).toList = c :: rest :=
    List.exists_cons_of_ne_nil (by simp)
  rw [behind] at letters read
  simp only [readArguments, letters, read, bind, Except.bind]

theorem exists_readArguments {parameters : List Parameter} {parameter : Parameter}
    (found : parameters.find? (·.name = parameter.name) = some parameter)
    (many : parameter.arity = .many) (unequal : '=' ∉ parameter.name.toList)
    {groups : List (List String)} (ne : ∀ texts ∈ groups, texts ≠ [])
    (plain : ∀ texts ∈ groups, ∀ text ∈ texts, ',' ∉ text.toList) {values : Values}
    {texts : List String} (only : Only values parameter.name texts) :
    ∃ final, readArguments parameters (groups.map (argument parameter.name)) { values } =
      .ok { values := final } ∧ Only final parameter.name (texts ++ groups.flatten) := by
  induction groups generalizing values texts with
  | nil => exact ⟨values, rfl, by rwa [List.flatten_nil, List.append_nil]⟩
  | cons group groups ih =>
    rw [List.forall_mem_cons] at ne plain
    have next := only.cons ((values.lookup parameter.name).getD [] ++ group)
    rw [only.own] at next
    obtain ⟨final, read, finally_only⟩ := ih ne.2 plain.2 next
    refine ⟨final, ?_, by rwa [List.flatten_cons, ← List.append_assoc]⟩
    rw [List.map_cons, readArguments_argument (readLong_many found many unequal ne.1 plain.1 values),
      only.own, read]

theorem readEnvironment_none (parameters : List Parameter) (values : Values) :
    readEnvironment (fun _ => none) parameters values = .ok values := by
  induction parameters with
  | nil => rfl
  | cons parameter parameters ih =>
    rw [readEnvironment]
    cases values.lookup parameter.name <;> exact ih

end CommandLine

namespace Config

/-- A text that spells no label: without an equals sign, or with nothing before it. -/
def Malformed (text : String) : Prop :=
  '=' ∉ text.toList ∨ text.toList.head? = some '='

instance (text : String) : Decidable (Malformed text) := by
  unfold Malformed; infer_instance

def spelling (label : String × String) : String :=
  label.1 ++ "=" ++ label.2

theorem label?_spelling {label : String × String} (ne : label.1 ≠ "")
    (unequal : '=' ∉ label.1.toList) : label? (spelling label) = some label := by
  have letters : (spelling label).toList = label.1.toList ++ '=' :: label.2.toList := by
    simp [spelling]
  obtain ⟨c, rest, name⟩ : ∃ c rest, label.1.toList = c :: rest :=
    List.exists_cons_of_ne_nil (by simpa using ne)
  rw [label?, letters, CommandLine.splitEquals_append unequal, name]
  simp only [← name, String.ofList_toList]

theorem label?_of_malformed {text : String} (malformed : Malformed text) : label? text = none := by
  rw [label?]
  rcases malformed with absent | first
  · rw [CommandLine.splitEquals_of_not_mem absent]
    cases text.toList <;> rfl
  · cases letters : text.toList with
    | nil => rfl
    | cons c rest =>
      rw [letters] at first
      cases first
      rfl

theorem exists_spelling {text : String} (spells : ¬ Malformed text) :
    ∃ label, text = spelling label ∧ label.1 ≠ "" ∧ '=' ∉ label.1.toList := by
  obtain ⟨present, first⟩ := not_or.1 spells
  obtain ⟨name, value, letters, absent⟩ := List.eq_append_cons_of_mem (not_not.1 present)
  refine ⟨(String.ofList name, String.ofList value), ?_, ?_, by simpa using absent⟩
  · rw [← String.toList_inj, letters]
    simp [spelling]
  · intro empty
    obtain rfl : name = [] := by simpa using empty
    exact first (by rw [letters]; rfl)

theorem readLabels_cons {text : String} {label : String × String} (spelled : label? text = some label)
    (texts : List String) : readLabels (text :: texts) = (readLabels texts).map (label :: ·) := by
  rw [readLabels, spelled]

theorem readLabels_spellings {labels : List (String × String)}
    (keys : ∀ label ∈ labels, label.1 ≠ "" ∧ '=' ∉ label.1.toList) :
    readLabels (labels.map spelling) = .ok labels := by
  induction labels with
  | nil => rfl
  | cons label labels ih =>
    rw [List.forall_mem_cons] at keys
    rw [List.map_cons, readLabels_cons (label?_spelling keys.1.1 keys.1.2), ih keys.2]
    rfl

theorem readLabels_of_malformed {before : List String} {text : String}
    (spell : ∀ other ∈ before, ¬ Malformed other) (malformed : Malformed text)
    (after : List String) : readLabels (before ++ text :: after) = .error (.label text) := by
  induction before with
  | nil => rw [List.nil_append, readLabels, label?_of_malformed malformed]
  | cons other before ih =>
    rw [List.forall_mem_cons] at spell
    obtain ⟨label, rfl, ne, unequal⟩ := exists_spelling spell.1
    rw [List.cons_append, readLabels_cons (label?_spelling ne unequal), ih spell.2]
    rfl

theorem exists_spellings {texts : List String} (spell : ∀ text ∈ texts, ¬ Malformed text) :
    ∃ labels : List (String × String), texts = labels.map spelling ∧
      ∀ label ∈ labels, label.1 ≠ "" ∧ '=' ∉ label.1.toList := by
  induction texts with
  | nil => exact ⟨[], rfl, by simp⟩
  | cons text texts ih =>
    rw [List.forall_mem_cons] at spell
    obtain ⟨label, rfl, key⟩ := exists_spelling spell.1
    obtain ⟨labels, rfl, keys⟩ := ih spell.2
    exact ⟨label :: labels, rfl, List.forall_mem_cons.2 ⟨key, keys⟩⟩

def labelled (labels : SortedMap String) : Config where
  address := .v4 [0, 0, 0, 0] 8080
  tls := none
  metrics := false
  logLevel := "info"
  logFormat := .text
  logNoColor := false
  webhookId := "labels"
  labels
  requiredLabels := []
  timeout := none

open CommandLine (Only argument)

theorem ofValues_of_only {values : CommandLine.Values} {texts : List String}
    (only : Only values "label" texts) :
    ofValues values = (readLabels texts).map fun labels => labelled (.ofList labels) := by
  have missing (name : String) (ne : name ≠ "label") : value? values name = none := by
    rw [value?, only.other name ne]
    rfl
  simp only [ofValues, valueD, missing _ (by decide : "addr" ≠ "label"),
    missing _ (by decide : "port" ≠ "label"), missing _ (by decide : "cert-file" ≠ "label"),
    missing _ (by decide : "key-file" ≠ "label"), missing _ (by decide : "webhook-id" ≠ "label"),
    missing _ (by decide : "timeout" ≠ "label"), missing _ (by decide : "enable-metrics" ≠ "label"),
    missing _ (by decide : "log-level" ≠ "label"), missing _ (by decide : "log-fmt" ≠ "label"),
    missing _ (by decide : "log-no-color" ≠ "label"), only.own,
    only.other _ (by decide : "required-label" ≠ "label")]
  cases readLabels texts <;> rfl

theorem timeout_of_ofValues {values : CommandLine.Values} {config : Config}
    (made : ofValues values = .ok config) :
    readTimeout (value? values "timeout") = .ok config.timeout := by
  simp only [ofValues, bind, Except.bind, throw, throwThe, MonadExceptOf.throw, pure,
    Except.pure] at made
  split at made
  case h_2 => cases made
  split at made
  · cases made
  · split at made
    · cases made
    · split at made
      · cases made
      · split at made
        · cases made
        · rename_i read
          cases made
          exact read

def Last (labels : List (String × String)) (key value : String) : Prop :=
  ∃ before after, labels = before ++ (key, value) :: after ∧ ∀ later ∈ after, later.1 ≠ key

theorem exists_before_of_find? {labels : List (String × String)} {key value : String}
    (found : Entries.find? labels key = some value) :
    ∃ before after, labels = before ++ (key, value) :: after ∧ ∀ other ∈ before, other.1 ≠ key := by
  induction labels with
  | nil => cases found
  | cons label labels ih =>
    rw [Entries.find?] at found
    split at found
    · rename_i same
      cases found
      subst same
      exact ⟨[], labels, rfl, by simp⟩
    · rename_i differs
      obtain ⟨before, after, rfl, others⟩ := ih found
      exact ⟨label :: before, after, rfl, List.forall_mem_cons.2 ⟨differs, others⟩⟩

theorem find?_append_cons {before : List (String × String)} {key : String}
    (others : ∀ other ∈ before, other.1 ≠ key) (value : String)
    (after : List (String × String)) :
    Entries.find? (before ++ (key, value) :: after) key = some value := by
  have absent : Entries.find? before key = none := by
    refine Entries.find?_eq_none_of_not_mem fun mem => ?_
    obtain ⟨other, other_mem, same⟩ := List.mem_map.1 mem
    exact others other other_mem same
  rw [Entries.find?_append, absent, Entries.find?, if_pos rfl]
  rfl

theorem find?_ofList_iff {labels : List (String × String)} {key value : String} :
    (SortedMap.ofList labels).find? key = some value ↔ Last labels key value := by
  rw [SortedMap.find?, SortedMap.ofList, Entries.find?_sort]
  constructor
  · intro found
    obtain ⟨before, after, eq, others⟩ := exists_before_of_find? found
    refine ⟨after.reverse, before.reverse, ?_, fun later mem => others later (List.mem_reverse.1 mem)⟩
    rw [← List.reverse_reverse labels, eq]
    simp
  · rintro ⟨before, after, rfl, others⟩
    rw [List.reverse_append, List.reverse_cons, List.append_assoc]
    exact find?_append_cons (fun later mem => others later (List.mem_reverse.1 mem)) value _

theorem eq_ofList {labels : List (String × String)} {map : SortedMap String}
    (last : ∀ key value, map.find? key = some value ↔ Last labels key value) :
    SortedMap.ofList labels = map := by
  refine SortedMap.ext_find? fun key => Option.ext fun value => ?_
  rw [find?_ofList_iff, last]

/-- The texts of labels that arguments give, however they are grouped into arguments, and nothing
else. If all of them spell labels, the configuration has these labels, the last one of each key. It is
refused exactly if some text spells none, and the complaint is about the first such text. -/
theorem labels_of_arguments {groups : List (List String)} (ne : ∀ texts ∈ groups, texts ≠ [])
    (plain : ∀ texts ∈ groups, ∀ text ∈ texts, ',' ∉ text.toList) :
    ∃ values, CommandLine.read parameters (fun _ => none) (groups.map (argument "label")) =
        .ok values ∧
      (∀ (labels : List (String × String)) (map : SortedMap String),
        groups.flatten = labels.map spelling →
        (∀ label ∈ labels, label.1 ≠ "" ∧ '=' ∉ label.1.toList) →
        (∀ key value, map.find? key = some value ↔ Last labels key value) →
        ofValues values = .ok (labelled map)) ∧
      ((∃ error, ofValues values = .error error) ↔ ∃ text ∈ groups.flatten, Malformed text) ∧
      ∀ before text after, groups.flatten = before ++ text :: after →
        (∀ other ∈ before, ¬ Malformed other) → Malformed text →
        ∃ error, ofValues values = .error error ∧ error.message =
          "error parsing arguments: " ++
            ("label \x27" ++ text ++ "\x27 is not in the KEY=VALUE format") := by
  have nothing : Only [] "label" [] := ⟨rfl, fun _ _ => rfl⟩
  let parameter : Parameter := ⟨"label", "ADMISSION_WEBHOOK_LABELS", .many⟩
  have found : parameters.find? (·.name = parameter.name) = some parameter := rfl
  obtain ⟨values, read, only⟩ : ∃ values,
      CommandLine.readArguments parameters (groups.map (argument "label")) {} = .ok { values } ∧
        Only values "label" ([] ++ groups.flatten) :=
    CommandLine.exists_readArguments found rfl (by decide) ne plain nothing
  have made := ofValues_of_only only
  rw [List.nil_append] at made
  have refused (before : List String) (text : String) (after : List String)
      (eq : groups.flatten = before ++ text :: after) (spell : ∀ other ∈ before, ¬ Malformed other)
      (malformed : Malformed text) : ofValues values = .error (.label text) := by
    rw [made, eq, readLabels_of_malformed spell malformed]
    rfl
  refine ⟨values, ?_, fun labels map eq keys last => ?_, ⟨fun ⟨error, failed⟩ => ?_, ?_⟩, ?_⟩
  · simp only [CommandLine.read, read, bind, Except.bind, CommandLine.readEnvironment_none]
  · rw [made, eq, readLabels_spellings keys, ← eq_ofList last]
    rfl
  · by_contra none
    obtain ⟨labels, eq, keys⟩ := exists_spellings fun text mem malformed =>
      none ⟨text, mem, malformed⟩
    rw [made, eq, readLabels_spellings keys] at failed
    cases failed
  · rintro ⟨text, mem, malformed⟩
    -- the first of the malformed texts
    obtain ⟨first, found⟩ := Option.isSome_iff_exists.1
      (List.find?_isSome (p := fun text => decide (Malformed text)).2
        ⟨text, mem, decide_eq_true malformed⟩)
    obtain ⟨first_malformed, before, after, eq, spell⟩ := List.find?_eq_some_iff_append.1 found
    exact ⟨_, refused before first after eq (fun other mem => by simpa using spell other mem)
      (of_decide_eq_true first_malformed)⟩
  · intro before text after eq spell malformed
    exact ⟨_, refused before text after eq spell malformed, rfl⟩

/-- A label is given twice, once with an equals sign in its value and once without a value. -/
theorem labels_of_two_arguments : ∃ values config,
    CommandLine.read parameters (fun _ => none) ["--label=a=1,b=x=y", "--label=a="] = .ok values ∧
    ofValues values = .ok config ∧ config.labels = .ofList [("a", ""), ("b", "x=y")] := by
  have flat : [["a=1", "b=x=y"], ["a="]].flatten =
      [("a", "1"), ("b", "x=y"), ("a", "")].map spelling := by decide
  have last (key value : String) :
      (SortedMap.ofList [("a", ""), ("b", "x=y")]).find? key = some value ↔
        Last [("a", "1"), ("b", "x=y"), ("a", "")] key value := by
    rw [← find?_ofList_iff]
    rfl
  have ne : ∀ texts ∈ [["a=1", "b=x=y"], ["a="]], texts ≠ [] := by decide
  obtain ⟨values, read, labels, -⟩ := labels_of_arguments ne (by decide)
  exact ⟨values, _, read, labels _ _ flat (by decide) last, rfl⟩

end Config

end Admission
