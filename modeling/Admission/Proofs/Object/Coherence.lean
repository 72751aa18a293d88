import Admission.Object.Edit
import Admission.Proofs.Object.Generic

/-! A generic object keeps its labels and annotations beside its tree. What it tells of its metadata
is what stands in the tree it is written as, whatever edits were made in whatever order, and an edit
of the metadata does not show anywhere else. -/

set_option autoImplicit false

namespace Admission

theorem Entries.mapValues?_mapValues {α β : Type} {f : α → Option β} {g : β → α}
    (inverse : ∀ value, f (g value) = some value) (entries : Entries β) :
    mapValues? f (mapValues g entries) = some entries := by
  induction entries with
  | nil => rfl
  | cons entry entries ih =>
    rw [mapValues] at ih
    simp only [mapValues, List.map_cons, mapValues?, inverse, ih]

theorem Entries.mapValues_of_mapValues? {α β γ : Type} {f : α → Option β} {g : α → γ} {h : β → γ}
    (same : ∀ value other, f value = some other → g value = h other) {entries : Entries α}
    {mapped : Entries β} (eq : mapValues? f entries = some mapped) :
    mapValues g entries = mapValues h mapped := by
  fun_induction mapValues? f entries generalizing mapped with
  | case1 =>
    cases eq
    rfl
  | case2 key value rest other others found_rest found ih =>
    cases eq
    have rest_eq := ih found_rest
    simp only [mapValues, List.map_cons] at rest_eq ⊢
    rw [same value other found, rest_eq]
  | case3 => cases eq

theorem SortedMap.entries_of_mapValues? {α β : Type} {f : α → Option β} {map : SortedMap α}
    {mapped : SortedMap β} (eq : map.mapValues? f = some mapped) :
    map.entries.mapValues? f = some mapped.entries := by
  rw [mapValues?] at eq
  split at eq
  · rename_i entries found
    cases eq
    exact found
  · cases eq

theorem SortedMap.mapValues?_of_entries {α β : Type} {f : α → Option β} {map : SortedMap α}
    {mapped : SortedMap β} (eq : map.entries.mapValues? f = some mapped.entries) :
    map.mapValues? f = some mapped := by
  rw [mapValues?]
  split
  · rename_i entries found
    obtain ⟨other, sorted⟩ := mapped
    cases found.symm.trans eq
    rfl
  · rename_i missing
    cases missing.symm.trans eq

namespace Json

def metadata? (json : Json) (field : String) : Option Json :=
  (json.member? "metadata").bind (·.member? field)

/-- The map that a value is read as: its own if it is an object of strings only, else the empty
one. -/
inductive ReadsAs : Option Json → SortedMap String → Prop where
  | strings (map : SortedMap String) : ReadsAs (some (ofStringMap map)) map
  | other {value : Option Json} (other : ∀ map, value ≠ some (ofStringMap map)) : ReadsAs value ∅

namespace Tree

theorem json_member? (tree : Tree) (key : String) :
    (tree.member? key).map json = tree.json.member? key := by
  rw [Tree.member?]
  cases held : tree.members? with
  | some members =>
    rw [eq_object_of_members? held]
    exact (step?_object members key).symm
  | none =>
    obtain ⟨value, canonical⟩ := tree
    cases value with
    | object members => cases held
    | _ => rfl

theorem json_ofStringMap (map : SortedMap String) : (ofStringMap map).json = .ofStringMap map := by
  simp only [ofStringMap, object, Json.ofStringMap, ofMap, SortedMap.mapValues, Entries.mapValues,
    List.map_map]
  rfl

theorem string?_eq_some {tree : Tree} {text : String} :
    tree.string? = some text ↔ tree.json = .string text := by
  obtain ⟨value, canonical⟩ := tree
  cases value <;> simp [string?, Json.string?]

theorem stringMap?_ofStringMap (map : SortedMap String) :
    (ofStringMap map).stringMap? = some map := by
  rw [stringMap?, ofStringMap, members?_object, Option.bind_some]
  exact SortedMap.mapValues?_of_entries
    (Entries.mapValues?_mapValues (g := string) (fun _ => rfl) map.entries)

theorem stringMap?_eq_some {tree : Tree} {map : SortedMap String} :
    tree.stringMap? = some map ↔ tree.json = .ofStringMap map := by
  constructor
  · intro read
    obtain ⟨members, held, mapped⟩ := Option.bind_eq_some_iff.1 read
    have strings : members.entries.mapValues json = map.entries.mapValues Json.string :=
      Entries.mapValues_of_mapValues? (fun _ _ found => string?_eq_some.1 found)
        (SortedMap.entries_of_mapValues? mapped)
    rw [eq_object_of_members? held]
    exact congrArg Json.object strings
  · intro written
    rw [ext_json (written.trans (json_ofStringMap map).symm)]
    exact stringMap?_ofStringMap map

theorem readsAs (tree : Option Tree) :
    ReadsAs (tree.map json) ((tree.bind stringMap?).getD ∅) := by
  cases held : tree.bind stringMap? with
  | some map =>
    obtain ⟨tree, rfl, read⟩ := Option.bind_eq_some_iff.1 held
    rw [Option.map_some, stringMap?_eq_some.1 read]
    exact .strings map
  | none =>
    refine .other fun map written => ?_
    obtain ⟨found, rfl, json_eq⟩ := Option.map_eq_some_iff.1 written
    rw [Option.bind_some, stringMap?_eq_some.2 json_eq] at held
    cases held

end Tree

end Json

theorem SortedMap.eq_empty_of_isEmpty {α : Type} (map : SortedMap α) (empty : map.isEmpty = true) :
    map = ∅ := by
  obtain ⟨entries, sorted⟩ := map
  cases entries with
  | nil => rfl
  | cons entry entries => cases empty

namespace Generic

open Json (Tree ReadsAs)

theorem json_metadata? (data : Tree) (field : String) :
    (metadata? data field).map Tree.json = data.json.metadata? field := by
  rw [metadata?, Json.metadata?, ← Tree.json_member?]
  cases data.member? "metadata" with
  | none => rfl
  | some metadata => exact Tree.json_member? metadata field

theorem stringMap?_eq_some_iff {data : Tree} {field : String} {map : SortedMap String} :
    stringMap? data field = some map ↔ data.json.metadata? field = some (.ofStringMap map) := by
  rw [stringMap?, ← json_metadata?]
  cases metadata? data field with
  | none => simp
  | some tree => simp [Tree.stringMap?_eq_some]

/-- Two trees agree but for the given fields of their metadata. -/
structure SameBut (fields : List String) (before after : Tree) : Prop where
  root : ∀ key, key ≠ "metadata" → after.member? key = before.member? key
  metadata : ∀ field, field ∉ fields → metadata? after field = metadata? before field

namespace SameBut

variable {fields : List String} {first second third : Tree}

theorem refl (fields : List String) (data : Tree) : SameBut fields data data :=
  ⟨fun _ _ => rfl, fun _ _ => rfl⟩

theorem symm (same : SameBut fields first second) : SameBut fields second first :=
  ⟨fun key ne => (same.root key ne).symm, fun field out => (same.metadata field out).symm⟩

theorem trans (same : SameBut fields first second) (more : SameBut fields second third) :
    SameBut fields first third :=
  ⟨fun key ne => (more.root key ne).trans (same.root key ne),
    fun field out => (more.metadata field out).trans (same.metadata field out)⟩

theorem setMetadata (data : Tree) {field : String} (value : Tree) (mem : field ∈ fields) :
    SameBut fields data (setMetadata data field value) := by
  constructor
  · intro key ne
    rw [Generic.setMetadata]
    cases held : data.members? with
    | none => rfl
    | some members =>
      simp only [Tree.member?, Tree.members?_object, held, Option.bind_some,
        SortedMap.find?_insert, if_neg ne]
  · intro other out
    refine metadata?_setMetadata data value fun eq => out ?_
    rw [eq]
    exact mem

theorem writeMap (data : Tree) {field : String} (map : Option (SortedMap String))
    (mem : field ∈ fields) : SameBut fields data (writeMap data field map) := by
  cases map with
  | none => exact .refl fields data
  | some map =>
    simp only [Generic.writeMap]
    split
    · exact .refl fields data
    · exact .setMetadata data _ mem

theorem toTree (object : Generic) (labels : "labels" ∈ fields)
    (annotations : "annotations" ∈ fields) : SameBut fields object.data object.toTree :=
  (writeMap object.data object.labels labels).trans (writeMap _ object.annotations annotations)

end SameBut

theorem isObject_setMetadata {data : Tree} (root : data.json.isObject = true) (field : String)
    (value : Tree) : (setMetadata data field value).json.isObject = true := by
  rw [setMetadata]
  split
  · exact root
  · rfl

theorem isObject_writeMap {data : Tree} (root : data.json.isObject = true) (field : String)
    (map : Option (SortedMap String)) : (writeMap data field map).json.isObject = true := by
  cases map with
  | none => exact root
  | some map =>
    simp only [writeMap]
    split
    · exact root
    · exact isObject_setMetadata root field _

theorem members?_of_isObject {data : Tree} (root : data.json.isObject = true) :
    ∃ members, data.members? = some members := by
  obtain ⟨value, canonical⟩ := data
  cases value with
  | object members => exact ⟨_, rfl⟩
  | _ => cases root

theorem metadata?_setMetadata_self {data : Tree} (root : data.json.isObject = true)
    (field : String) (value : Tree) :
    metadata? (setMetadata data field value) field = some value := by
  obtain ⟨members, held⟩ := members?_of_isObject root
  simp only [setMetadata, held, metadata?, Tree.member?, Tree.members?_object, Option.bind_some,
    SortedMap.find?_insert, if_pos]

/-- A map that was written is found again; the empty one may be found missing. -/
theorem stringMap?_writeMap_self {data : Tree} {field : String} {map : Option (SortedMap String)}
    (root : data.json.isObject = true) (unset : map = none → stringMap? data field = none) :
    (stringMap? (writeMap data field map) field).getD ∅ = map.getD ∅ := by
  cases map with
  | none =>
    have missing : stringMap? data field = none := unset rfl
    simp only [writeMap, missing]
  | some map =>
    simp only [writeMap]
    split
    case isTrue kept =>
      -- nothing was written: the map is there, or it is empty and none is there
      rcases Bool.or_eq_true_iff.1 kept with same | absent
      · rw [of_decide_eq_true same]
      · obtain ⟨missing, empty⟩ := Bool.and_eq_true_iff.1 absent
        rw [Option.isNone_iff_eq_none.1 missing, map.eq_empty_of_isEmpty empty]
        rfl
    case isFalse =>
      rw [stringMap?, metadata?_setMetadata_self root, Option.bind_some, Tree.stringMap?_ofStringMap]

/-- What an object tells of its metadata is what stands in the tree it is written as. -/
structure Coherent (object : Generic) : Prop where
  name : object.name = (object.toTree.json.metadata? "name").bind Json.string?
  objectNamespace :
    object.objectNamespace = (object.toTree.json.metadata? "namespace").bind Json.string?
  labels : ReadsAs (object.toTree.json.metadata? "labels") (object.labels.getD ∅)
  annotations : ReadsAs (object.toTree.json.metadata? "annotations") (object.annotations.getD ∅)

/-- The tree holds no map of strings that the object does not have. -/
structure Kept (object : Generic) : Prop where
  labels : object.labels = none → stringMap? object.data "labels" = none
  annotations : object.annotations = none → stringMap? object.data "annotations" = none

theorem Kept.ofTree (data : Tree) : (ofTree data).Kept :=
  ⟨id, id⟩

theorem Kept.setMetadata {object : Generic} (kept : object.Kept) {field : String} (value : Tree)
    (labels : field ≠ "labels") (annotations : field ≠ "annotations") :
    Kept { object with data := setMetadata object.data field value } where
  labels unset := by
    rw [stringMap?, metadata?_setMetadata object.data value labels.symm]
    exact kept.labels unset
  annotations unset := by
    rw [stringMap?, metadata?_setMetadata object.data value annotations.symm]
    exact kept.annotations unset

structure WellKept (object : Generic) : Prop extends Kept object where
  root : object.data.json.isObject = true

theorem text?_eq (object : Generic) {field : String} (labels : field ≠ "labels")
    (annotations : field ≠ "annotations") :
    object.text? field = (object.toTree.json.metadata? field).bind Json.string? := by
  have same : SameBut ["labels", "annotations"] object.data object.toTree :=
    .toTree object (by simp) (by simp)
  rw [text?, ← json_metadata?, same.metadata field (by simp [labels, annotations])]
  cases metadata? object.data field <;> rfl

namespace WellKept

variable {object : Generic}

theorem coherent (kept : object.WellKept) : object.Coherent := by
  constructor
  case name => exact text?_eq object (by decide) (by decide)
  case objectNamespace => exact text?_eq object (by decide) (by decide)
  case labels =>
    -- the annotations are written last, which the labels do not show
    have written : (stringMap? object.toTree "labels").getD ∅ = object.labels.getD ∅ := by
      rw [toTree, stringMap?_writeMap _ object.annotations (by decide)]
      exact stringMap?_writeMap_self kept.root kept.labels
    rw [← json_metadata?, ← written]
    exact Tree.readsAs _
  case annotations =>
    have written : (stringMap? object.toTree "annotations").getD ∅ = object.annotations.getD ∅ := by
      refine stringMap?_writeMap_self (isObject_writeMap kept.root "labels" object.labels) ?_
      rw [stringMap?_writeMap object.data object.labels (by decide)]
      exact kept.annotations
    rw [← json_metadata?, ← written]
    exact Tree.readsAs _

theorem ofTree {data : Tree} (root : data.json.isObject = true) : (ofTree data).WellKept :=
  ⟨.ofTree data, root⟩

end WellKept

/-! ## Edits -/

def KeepsRoot (object : Generic) (edit : Edit) : Prop :=
  ∀ change, edit = .update change → (change object.toTree).json.isObject = true

/-- The object came of the start by edits that each left the root an object. -/
inductive Edited (start : Generic) : Generic → Prop where
  | start : Edited start start
  | edit {object next : Generic} {edit : Edit} (before : Edited start object)
    (keeps : object.KeepsRoot edit) (made : (Object.generic object).edit edit = .ok (.generic next)) :
    Edited start next

theorem Kept.edit {object next : Generic} {edit : Edit} (kept : object.Kept)
    (edited : (Object.generic object).edit edit = .ok (.generic next)) : next.Kept := by
  cases edit with
  | setName name | setNamespace name =>
    cases edited
    exact kept.setMetadata (.string name) (by decide) (by decide)
  | labels edit =>
    cases edited
    exact ⟨nofun, kept.annotations⟩
  | annotations edit =>
    cases edited
    exact ⟨kept.labels, nofun⟩
  | update change =>
    -- whatever the change made of the root, labels and annotations are read from it anew
    cases edited
    exact .ofTree (change object.toTree)
  | pullPolicy policy => cases edited

theorem WellKept.edit {object next : Generic} {edit : Edit} (kept : object.WellKept)
    (keeps : object.KeepsRoot edit) (made : (Object.generic object).edit edit = .ok (.generic next)) :
    next.WellKept := by
  refine ⟨kept.toKept.edit made, ?_⟩
  cases edit with
  | setName name | setNamespace name =>
    cases made
    exact isObject_setMetadata kept.root _ _
  | labels edit | annotations edit =>
    cases made
    exact kept.root
  | update change =>
    cases made
    exact keeps change rfl
  | pullPolicy policy => cases made

theorem WellKept.edited {start object : Generic} (kept : start.WellKept)
    (edited : Edited start object) : object.WellKept := by
  induction edited with
  | start => exact kept
  | edit before keeps made ih => exact ih.edit keeps made

def accessed : List String :=
  ["name", "namespace", "labels", "annotations"]

/-- Two values agree but for what an object has accessors for. -/
structure Frame (before after : Json) : Prop where
  root : ∀ key, key ≠ "metadata" → after.member? key = before.member? key
  metadata : ∀ field, field ∉ accessed →
    after.metadata? field = before.metadata? field

theorem SameBut.frame {before after : Tree} (same : SameBut accessed before after) :
    Frame before.json after.json := by
  constructor
  · intro key ne
    rw [← Tree.json_member?, ← Tree.json_member?, same.root key ne]
  · intro field out
    rw [← json_metadata?, ← json_metadata?, same.metadata field out]

theorem sameBut_edit {object next : Generic} {edit : Edit}
    (made : (Object.generic object).edit edit = .ok (.generic next))
    (no_update : ∀ change, edit ≠ .update change) :
    SameBut accessed object.data next.data := by
  cases edit with
  | setName name =>
    cases made
    exact .setMetadata object.data (.string name) (by decide)
  | setNamespace name =>
    cases made
    exact .setMetadata object.data (.string name) (by decide)
  | labels edit =>
    cases made
    exact .refl _ object.data
  | annotations edit =>
    cases made
    exact .refl _ object.data
  | update change => exact absurd rfl (no_update change)
  | pullPolicy policy => cases made

theorem frame_edit {object next : Generic} {edit : Edit}
    (made : (Object.generic object).edit edit = .ok (.generic next))
    (no_update : ∀ change, edit ≠ .update change) :
    Frame object.toTree.json next.toTree.json := by
  have written (object : Generic) : SameBut accessed object.data object.toTree :=
    .toTree object (by decide) (by decide)
  have edited : SameBut accessed object.data next.data := sameBut_edit made no_update
  exact ((written object).symm.trans (edited.trans (written next))).frame

theorem edit_generic (object : Generic) {edit : Edit}
    (no_pull : ∀ policy, edit ≠ .pullPolicy policy) :
    ∃ next, (Object.generic object).edit edit = .ok (.generic next) := by
  cases edit with
  | pullPolicy policy => exact absurd rfl (no_pull policy)
  | _ => exact ⟨_, rfl⟩

/-- A generic object can be made of any tree whose root is an object. Whatever edits that leave it
one are made, it tells of its metadata what stands in the tree it is written as, and the next edit
goes through and, unless it changes the tree itself, shows in its metadata only. -/
theorem edited_coherent {data : Tree} (root : data.json.isObject = true) :
    ∃ start, ofTree? data = some start ∧ ∀ object, Edited start object →
      object.Coherent ∧
      ∀ edit, (∀ policy, edit ≠ .pullPolicy policy) →
        ∃ next, (Object.generic object).edit edit = .ok (.generic next) ∧
          ((∀ change, edit ≠ .update change) → Frame object.toTree.json next.toTree.json) := by
  refine ⟨ofTree data, if_pos root, fun object edited => ⟨?_, fun edit no_pull => ?_⟩⟩
  · exact ((WellKept.ofTree root).edited edited).coherent
  · obtain ⟨next, made⟩ := edit_generic object no_pull
    exact ⟨next, made, frame_edit made⟩

def bare : Tree :=
  .object ((∅ : SortedMap Tree).insert "metadata" .null)

/-- The tree was changed after a label was set, which is thereby written into it. -/
theorem edited_coherent_flushed :
    bare.json.isObject = true ∧ ∃ start object : Generic, ofTree? bare = some start ∧
      Edited start object ∧ object.Coherent ∧
      object.labels = some ((∅ : SortedMap String).insert "app" "web") ∧
      object.data.json.metadata? "labels" =
        some (.ofStringMap ((∅ : SortedMap String).insert "app" "web")) ∧
      ∃ next, (Object.generic object).edit (.setName "web") = .ok (.generic next) ∧
        Frame object.toTree.json next.toTree.json := by
  have root : bare.json.isObject = true := rfl
  obtain ⟨start, created, coherent⟩ := edited_coherent root
  obtain rfl : ofTree bare = start := Option.some_inj.1 created
  let labelled : Generic := ⟨bare, some ((∅ : SortedMap String).insert "app" "web"), none⟩
  have keeps : labelled.KeepsRoot (.update id) := by
    intro change eq
    cases eq
    rfl
  have labels : (Object.generic (ofTree bare)).edit (.labels (.insert "app" "web")) =
      .ok (.generic labelled) := rfl
  have noUpdate : (ofTree bare).KeepsRoot (.labels (.insert "app" "web")) := nofun
  have edited : Edited (ofTree bare) (labelled.update id) :=
    .edit (.edit .start noUpdate labels) keeps rfl
  obtain ⟨holds, edits⟩ := coherent _ edited
  obtain ⟨next, made, frame⟩ := edits (.setName "web") nofun
  exact ⟨root, _, _, created, edited, holds, by decide, rfl, next, made, frame nofun⟩

end Generic

end Admission
