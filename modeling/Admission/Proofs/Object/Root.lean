import Admission.Proofs.Object.EntryEdit
import Admission.Proofs.Object.Update

/-! The root of a generic object. It is made of a tree whose root is an object, which no edit of the
metadata changes; a change of the tree may make anything of it. As long as the root is an object, what
is set shows in the tree that the object is written as. Once it is none, nothing does. -/

set_option autoImplicit false

namespace Admission

namespace Generic

open Json (Tree)

def changed? (object : Generic) : Edit → Option Tree
  | .update change => some (change object.toTree)
  | _ => none

def lastChanged? (object : Generic) (edits : List Edit) : Option Tree :=
  match edits with
  | [] => none
  | edit :: edits =>
    match (Object.generic object).edit edit with
    | .ok (.generic next) => (next.lastChanged? edits).or (object.changed? edit)
    | _ => none

def Refused (edit : Edit) : Prop :=
  ∃ policy, edit = .pullPolicy policy

theorem exists_edit (object : Generic) {edit : Edit} (taken : ¬ Refused edit) :
    ∃ next, (Object.generic object).edit edit = .ok (.generic next) :=
  edit_generic object fun policy eq => taken ⟨policy, eq⟩

theorem editAll_cons {object next : Generic} {edit : Edit}
    (made : (Object.generic object).edit edit = .ok (.generic next)) (edits : List Edit) :
    (Object.generic object).editAll (edit :: edits) = (Object.generic next).editAll edits := by
  rw [Object.editAll, made]

theorem exists_editAll {edits : List Edit} (taken : ∀ edit ∈ edits, ¬ Refused edit)
    (object : Generic) :
    ∃ final, (Object.generic object).editAll edits = (.generic final, none) := by
  induction edits generalizing object with
  | nil => exact ⟨object, rfl⟩
  | cons edit edits ih =>
    rw [List.forall_mem_cons] at taken
    obtain ⟨next, made⟩ := exists_edit object taken.1
    rw [editAll_cons made]
    exact ih taken.2 next

/-- What each edit of a run keeps, the run keeps. -/
theorem editAll_invariant {P : Generic → Prop} {edits : List Edit}
    (step : ∀ object next, ∀ edit ∈ edits, P object →
      (Object.generic object).edit edit = .ok (.generic next) → P next)
    (taken : ∀ edit ∈ edits, ¬ Refused edit) {object final : Generic} (holds : P object)
    (run : (Object.generic object).editAll edits = (.generic final, none)) : P final := by
  induction edits generalizing object with
  | nil =>
    cases run
    exact holds
  | cons edit edits ih =>
    rw [List.forall_mem_cons] at taken
    obtain ⟨next, made⟩ := exists_edit object taken.1
    rw [editAll_cons made] at run
    exact ih (fun object next edit mem => step object next edit (List.mem_cons_of_mem _ mem)) taken.2
      (step object next edit List.mem_cons_self holds made) run

theorem Reached.editAll {edits : List Edit} {object final : Generic} (reached : object.Reached)
    (taken : ∀ edit ∈ edits, ¬ Refused edit)
    (run : (Object.generic object).editAll edits = (.generic final, none)) : final.Reached :=
  editAll_invariant (fun _ _ _ _ before made => .edit before made) taken reached run

theorem isObject_setMetadata_eq (data : Tree) (field : String) (value : Tree) :
    (setMetadata data field value).json.isObject = data.json.isObject := by
  cases root : data.json.isObject with
  | true => exact isObject_setMetadata root field value
  | false => rw [setMetadata_eq_self root, root]

theorem isObject_toTree (object : Generic) :
    object.toTree.json.isObject = object.data.json.isObject := by
  cases root : object.data.json.isObject with
  | true => exact isObject_writeMap (isObject_writeMap root "labels" _) "annotations" _
  | false => rw [toTree_eq_data root, root]

/-- A root is what a change makes of it, and stays what it is under any other edit. -/
theorem isObject_edit {object next : Generic} {edit : Edit}
    (made : (Object.generic object).edit edit = .ok (.generic next)) :
    next.data.json.isObject = ((object.changed? edit).getD object.data).json.isObject := by
  cases edit with
  | setName name | setNamespace name =>
    cases made
    exact isObject_setMetadata_eq object.data _ (.string name)
  | labels edit | annotations edit | update change =>
    cases made
    rfl
  | pullPolicy policy => cases made

theorem isObject_editAll {edits : List Edit} (taken : ∀ edit ∈ edits, ¬ Refused edit)
    {object final : Generic} (run : (Object.generic object).editAll edits = (.generic final, none)) :
    final.data.json.isObject = ((object.lastChanged? edits).getD object.data).json.isObject := by
  induction edits generalizing object with
  | nil =>
    cases run
    rfl
  | cons edit edits ih =>
    rw [List.forall_mem_cons] at taken
    obtain ⟨next, made⟩ := exists_edit object taken.1
    rw [editAll_cons made] at run
    rw [ih taken.2 run, lastChanged?, made]
    dsimp only
    -- without a change later on the root is the one that this edit left
    cases next.lastChanged? edits with
    | some tree => rfl
    | none => exact isObject_edit made

inductive Setting where
  | name (text : String)
  | objectNamespace (text : String)
  | entry (field : MapField) (key value : String)

def map (object : Generic) : MapField → SortedMap String
  | .labels => object.labels.getD ∅
  | .annotations => object.annotations.getD ∅

theorem Coherent.map {object : Generic} (coherent : object.Coherent) (field : MapField) :
    Json.ReadsAs (object.toTree.json.metadata? field.name) (object.map field) := by
  cases field with
  | labels => exact coherent.labels
  | annotations => exact coherent.annotations

namespace Setting

def edit : Setting → Edit
  | name text => .setName text
  | objectNamespace text => .setNamespace text
  | entry field key value => field.edit (.insert key value)

def ToldBy (object : Generic) : Setting → Prop
  | name text => object.name = some text
  | objectNamespace text => object.objectNamespace = some text
  | entry field key value => (object.map field).find? key = some value

def ShownIn (json : Json) : Setting → Prop
  | name text => json.metadata? "name" = some (.string text)
  | objectNamespace text => json.metadata? "namespace" = some (.string text)
  | entry field key value =>
    (json.metadata? field.name).bind (·.member? key) = some (.string value)

/-- An edit that neither changes the tree nor sets anew or takes away what was set. -/
def Spared (setting : Setting) (edit : Edit) : Prop :=
  match setting, edit with
  | _, .update _ | _, .pullPolicy _ => False
  | name _, .setName _ | objectNamespace _, .setNamespace _ => False
  | entry .labels key _, .labels edit | entry .annotations key _, .annotations edit =>
    ∀ map, (edit.apply map).find? key = map.find? key
  | _, _ => True

variable {setting : Setting} {object next : Generic}

theorem Spared.not_refused {edit : Edit} (spared : setting.Spared edit) : ¬ Refused edit := by
  rintro ⟨policy, rfl⟩
  cases setting with
  | entry field => cases field <;> exact spared
  | _ => exact spared

theorem Spared.changed?_eq {edit : Edit} (spared : setting.Spared edit) (object : Generic) :
    object.changed? edit = none := by
  cases edit with
  | update change =>
    cases setting with
    | entry field => cases field <;> exact spared.elim
    | _ => exact spared.elim
  | _ => rfl

theorem changed?_edit (setting : Setting) (object : Generic) :
    object.changed? setting.edit = none := by
  cases setting with
  | entry field => cases field <;> rfl
  | _ => rfl

theorem exists_next (setting : Setting) (object : Generic) :
    ∃ next, (Object.generic object).edit setting.edit = .ok (.generic next) := by
  cases setting with
  | entry field => cases field <;> exact ⟨_, rfl⟩
  | _ => exact ⟨_, rfl⟩

theorem text?_setMetadata {object : Generic} (root : object.data.json.isObject = true)
    (field text : String) :
    text? { object with data := setMetadata object.data field (.string text) } field = some text := by
  rw [text?, metadata?_setMetadata_self root]
  rfl

theorem toldBy_edit (root : object.data.json.isObject = true)
    (made : (Object.generic object).edit setting.edit = .ok (.generic next)) :
    setting.ToldBy next := by
  cases setting with
  | name text | objectNamespace text =>
    cases made
    exact text?_setMetadata root _ text
  | entry field key value =>
    cases field <;> cases made <;> exact (SortedMap.find?_insert ..).trans (if_pos rfl)

theorem text?_setMetadata_of_ne (object : Generic) {field other : String} (value : Tree)
    (ne : other ≠ field) :
    text? { object with data := setMetadata object.data field value } other = object.text? other := by
  rw [text?, metadata?_setMetadata object.data value ne, text?]

theorem ToldBy.edit {edit : Edit} (told : setting.ToldBy object) (spared : setting.Spared edit)
    (made : (Object.generic object).edit edit = .ok (.generic next)) : setting.ToldBy next := by
  cases edit with
  | update change => cases spared.changed?_eq object
  | pullPolicy policy => cases made
  | setName text =>
    cases made
    cases setting with
    | name => exact spared.elim
    | objectNamespace => exact (text?_setMetadata_of_ne object _ (by decide)).trans told
    | entry field => cases field <;> exact told
  | setNamespace text =>
    cases made
    cases setting with
    | name => exact (text?_setMetadata_of_ne object _ (by decide)).trans told
    | objectNamespace => exact spared.elim
    | entry field => cases field <;> exact told
  | labels edit =>
    cases made
    cases setting with
    | name | objectNamespace => exact told
    | entry field =>
      cases field with
      | labels => exact (spared _).trans told
      | annotations => exact told
  | annotations edit =>
    cases made
    cases setting with
    | name | objectNamespace => exact told
    | entry field =>
      cases field with
      | labels => exact told
      | annotations => exact (spared _).trans told

theorem string_of_string? {json : Json} {text : String} (eq : json.string? = some text) :
    json = .string text := by
  cases json with
  | string value =>
    cases eq
    rfl
  | _ => cases eq

theorem shown_of_told {value : Option Json} {text : String}
    (told : value.bind Json.string? = some text) : value = some (.string text) := by
  obtain ⟨json, rfl, string⟩ := Option.bind_eq_some_iff.1 told
  rw [string_of_string? string]

theorem member?_of_readsAs {value : Option Json} {map : SortedMap String} {key text : String}
    (reads : Json.ReadsAs value map) (found : map.find? key = some text) :
    value.bind (·.member? key) = some (.string text) := by
  cases reads with
  | strings map =>
    have strings : (map.mapValues Json.string).find? key = some (.string text) := by
      rw [SortedMap.find?_mapValues, found, Option.map_some]
    exact strings
  | other => cases found

theorem ToldBy.shownIn (told : setting.ToldBy object) (coherent : object.Coherent) :
    setting.ShownIn object.toTree.json := by
  cases setting with
  | name text => exact shown_of_told (coherent.name.symm.trans told)
  | objectNamespace text => exact shown_of_told (coherent.objectNamespace.symm.trans told)
  | entry field key value => exact member?_of_readsAs (coherent.map field) told

end Setting

theorem data_edit {object next : Generic} {edit : Edit} (root : object.data.json.isObject = false)
    (unchanged : object.changed? edit = none)
    (made : (Object.generic object).edit edit = .ok (.generic next)) : next.data = object.data := by
  cases edit with
  | setName name | setNamespace name =>
    cases made
    exact setMetadata_eq_self root _ _
  | labels edit | annotations edit =>
    cases made
    rfl
  | update change => cases unchanged
  | pullPolicy policy => cases made

/-- An object is made of a tree whose root is one, and is written as one unless the last change of its
tree made something else of it. What is set while it is an object shows in what it is written as,
however its metadata are edited beside it; what is set otherwise leaves that as it was. -/
theorem shows_while_object {data : Tree} {start : Generic} {edits after : List Edit}
    {setting : Setting} (made : ofTree? data = some start)
    (taken : ∀ edit ∈ edits, ¬ Refused edit) (spared : ∀ edit ∈ after, setting.Spared edit) :
    data.json.isObject = true ∧ ∃ object set final,
      (Object.generic start).editAll edits = (.generic object, none) ∧
      (Object.generic object).edit setting.edit = .ok (.generic set) ∧
      (Object.generic set).editAll after = (.generic final, none) ∧
      object.toTree.json.isObject = ((start.lastChanged? edits).getD data).json.isObject ∧
      (object.toTree.json.isObject = true →
        final.toTree.json.isObject = true ∧ setting.ShownIn final.toTree.json) ∧
      (object.toTree.json.isObject = false → final.toTree = object.toTree) := by
  have root : data.json.isObject = true := by
    by_contra other
    rw [ofTree?, if_neg other] at made
    cases made
  obtain rfl : ofTree data = start := by
    rw [ofTree?, if_pos root] at made
    exact Option.some_inj.1 made
  have spared_taken : ∀ edit ∈ after, ¬ Refused edit :=
    fun edit mem => (spared edit mem).not_refused
  obtain ⟨object, run⟩ := exists_editAll taken (ofTree data)
  obtain ⟨set, sets⟩ := setting.exists_next object
  obtain ⟨final, rest⟩ := exists_editAll spared_taken set
  refine ⟨root, object, set, final, run, sets, rest, ?_, fun isObject => ?_, fun other => ?_⟩
  · rw [isObject_toTree, isObject_editAll taken run]
    rfl
  · rw [isObject_toTree] at isObject
    have set_root : set.data.json.isObject = true := by
      rw [isObject_edit sets, setting.changed?_edit]
      exact isObject
    -- the setting is told and the root stays an object, edit by edit
    obtain ⟨final_root, told⟩ := editAll_invariant
      (P := fun object => object.data.json.isObject = true ∧ setting.ToldBy object)
      (fun object next edit mem holds made => by
        refine ⟨?_, holds.2.edit (spared edit mem) made⟩
        rw [isObject_edit made, (spared edit mem).changed?_eq]
        exact holds.1) spared_taken ⟨set_root, Setting.toldBy_edit isObject sets⟩ rest
    have reached : final.Reached :=
      .editAll (.edit (.editAll (.made made) taken run) sets) spared_taken rest
    rw [isObject_toTree]
    exact ⟨final_root, told.shownIn (reached.coherent final_root)⟩
  · rw [isObject_toTree] at other
    have set_data : set.data = object.data := data_edit other (setting.changed?_edit object) sets
    have final_data : final.data = object.data := editAll_invariant
      (P := fun next => next.data = object.data)
      (fun before next edit mem same made => by
        rw [data_edit (by rw [same, other]) ((spared edit mem).changed?_eq before) made, same])
      spared_taken set_data rest
    rw [toTree_eq_data (by rw [final_data, other]), toTree_eq_data other, final_data]

/-- A number takes the place of a tree and makes way for one, and then a label is set and the object
renamed. -/
theorem shows_while_object_restored : ∃ start object set final : Generic,
    ofTree? bare = some start ∧
    (Object.generic start).editAll [.update fun _ => .number (.integer 5 (by decide)),
      .setName "lost", .update fun _ => bare] = (.generic object, none) ∧
    (Object.generic object).edit (.labels (.insert "team" "x")) = .ok (.generic set) ∧
    (Object.generic set).editAll [.labels (.erase "app"), .setName "web"] =
      (.generic final, none) ∧
    final.toTree.json.isObject = true ∧
    (final.toTree.json.metadata? "labels").bind (·.member? "team") = some (.string "x") := by
  have made : ofTree? bare = some (ofTree bare) := rfl
  have taken : ∀ edit ∈ [.update fun _ => .number (.integer 5 (by decide)), .setName "lost",
      .update fun _ => bare], ¬ Refused edit := by
    simp [Refused]
  have spared : ∀ edit ∈ [.labels (.erase "app"), .setName "web"],
      Setting.Spared (.entry .labels "team" "x") edit := by
    simp only [List.forall_mem_cons, Setting.Spared, MapEdit.apply, SortedMap.find?_erase]
    exact ⟨fun map => if_neg (by decide), trivial, nofun⟩
  obtain ⟨-, object, set, final, run, sets, rest, root, shows, -⟩ :=
    shows_while_object made taken spared
  obtain ⟨final_root, shown⟩ := shows root
  exact ⟨_, object, set, final, made, run, sets, rest, final_root, shown⟩

/-- An object whose tree was made a number is written as that number, whatever name it is given. -/
theorem number_has_no_name : ∃ start object : Generic,
    ofTree? (.object ∅) = some start ∧
    (Object.generic start).editAll [.update fun _ => .number (.integer 5 (by decide)),
      .setName "x"] = (.generic object, none) ∧
    object.toTree.json.isObject = false ∧
    object.toTree.json.metadata? "name" ≠ some (.string "x") :=
  ⟨_, _, rfl, rfl, rfl, nofun⟩

end Generic

end Admission
