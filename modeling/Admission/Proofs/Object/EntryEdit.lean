import Admission.Proofs.Object.Coherence

/-! One entry of the labels or annotations of a generic object is set or taken out. Where all the
entries are strings the tree changes in that entry only. Where one is not, the map is as good as
missing to the object: what is set replaces all of it, and nothing can be taken out. -/

set_option autoImplicit false

namespace Admission

open Json (Tree)

namespace Json.Tree

/-- The tree with a member set. What is no object makes way for one. -/
def withMember (tree : Tree) (key : String) (value : Tree) : Tree :=
  .object ((tree.members?.getD ∅).insert key value)

def withoutMember (tree : Tree) (key : String) : Tree :=
  match tree.members? with
  | some members => .object (members.erase key)
  | none => tree

theorem withMember_ofStringMap (map : SortedMap String) (key value : String) :
    (ofStringMap map).withMember key (.string value) = ofStringMap (map.insert key value) := by
  rw [withMember, ofStringMap, members?_object]
  refine congrArg object (SortedMap.ext_find? fun other => ?_)
  simp only [Option.getD_some, SortedMap.find?_insert, SortedMap.find?_mapValues]
  split <;> rfl

theorem withoutMember_ofStringMap (map : SortedMap String) (key : String) :
    (ofStringMap map).withoutMember key = ofStringMap (map.erase key) := by
  simp only [withoutMember, ofStringMap, members?_object]
  refine congrArg object (SortedMap.ext_find? fun other => ?_)
  simp only [SortedMap.find?_erase, SortedMap.find?_mapValues]
  split <;> rfl

theorem exists_eq_ofStringMap {members : SortedMap Tree}
    (strings : ∀ key value, members.find? key = some value → ∃ text, value = .string text) :
    ∃ map, object members = ofStringMap map := by
  obtain ⟨map, finds⟩ := SortedMap.exists_find? members.sorted
    (fun key => (members.find? key).bind string?) fun key => by
      show ((members.find? key).bind string?).isSome = (members.find? key).isSome
      cases found : members.find? key with
      | none => rfl
      | some value =>
        obtain ⟨text, rfl⟩ := strings key value found
        rfl
  refine ⟨map, congrArg object (SortedMap.ext_find? fun key => ?_)⟩
  rw [SortedMap.find?_mapValues, finds]
  cases found : members.find? key with
  | none => rfl
  | some value =>
    obtain ⟨text, rfl⟩ := strings key value found
    rfl

end Json.Tree

namespace Generic

def withEntry (data : Tree) (field key value : String) : Tree :=
  let metadata := (data.member? "metadata").getD .null
  let map := (metadata.member? field).getD .null
  data.withMember "metadata" (metadata.withMember field (map.withMember key (.string value)))

def withoutEntry (data : Tree) (field key : String) : Tree :=
  data.modifyAt ["metadata", field] fun map => map.withoutMember key

theorem withEntry_eq {data : Tree} (root : data.json.isObject = true) (field key value : String) :
    withEntry data field key value = setMetadata data field
      (((metadata? data field).getD .null).withMember key (.string value)) := by
  obtain ⟨members, held⟩ := members?_of_isObject root
  simp only [withEntry, setMetadata, metadata?, Tree.withMember, Tree.member?, held,
    Option.bind_some, Option.getD_some]
  cases members.find? "metadata" <;> rfl

theorem setMetadata_eq_of_metadata? {data : Tree} {field : String} {value : Tree}
    (stands : metadata? data field = some value) : setMetadata data field value = data := by
  obtain ⟨metadata, found, stands⟩ := Option.bind_eq_some_iff.1 stands
  obtain ⟨members, held, found⟩ := Option.bind_eq_some_iff.1 found
  obtain ⟨inner, inner_held, stands⟩ := Option.bind_eq_some_iff.1 stands
  rw [setMetadata, held]
  dsimp only
  rw [found, Option.bind_some, inner_held, Option.getD_some, SortedMap.insert_eq_self stands,
    ← Tree.eq_object_of_members? inner_held, SortedMap.insert_eq_self found,
    ← Tree.eq_object_of_members? held]

theorem modifyAt_metadata {data map : Tree} {field : String} (stands : metadata? data field = some map)
    (change : Tree → Tree) :
    data.modifyAt ["metadata", field] change = setMetadata data field (change map) := by
  obtain ⟨metadata, found, stands⟩ := Option.bind_eq_some_iff.1 stands
  obtain ⟨members, held, found⟩ := Option.bind_eq_some_iff.1 found
  obtain ⟨inner, inner_held, stands⟩ := Option.bind_eq_some_iff.1 stands
  simp only [Tree.modifyAt, setMetadata, held, found, inner_held, stands, Option.bind_some,
    Option.getD_some]

/-- A tree with room for an entry: an object whose metadata are an object or missing, and in them the
map is an object, null or missing. -/
structure Takes (data : Tree) (field : String) : Prop where
  root : data.json.isObject = true
  metadata : ∀ tree, data.member? "metadata" = some tree → tree.json.isObject = true
  map : ∀ tree, metadata? data field = some tree → tree.json.isObject = true ∨ tree = .null

def Textual (data : Tree) (field : String) : Prop :=
  ∀ map key value, metadata? data field = some map → map.member? key = some value →
    ∃ text, value = .string text

theorem withoutEntry_of_missing {data : Tree} {field : String} (takes : Takes data field)
    (missing : (metadata? data field).getD .null = .null) (key : String) :
    withoutEntry data field key = data := by
  cases stands : metadata? data field with
  | some map =>
    obtain rfl : map = .null := by rwa [stands, Option.getD_some] at missing
    exact (modifyAt_metadata stands _).trans (setMetadata_eq_of_metadata? stands)
  | none =>
    obtain ⟨members, held⟩ := members?_of_isObject takes.root
    simp only [withoutEntry, Tree.modifyAt, held]
    cases found : members.find? "metadata" with
    | none => rfl
    | some metadata =>
      have there : data.member? "metadata" = some metadata := by
        rw [Tree.member?, held, Option.bind_some, found]
      obtain ⟨inner, inner_held⟩ := members?_of_isObject (takes.metadata metadata there)
      have absent : inner.find? field = none := by
        rw [metadata?, there, Option.bind_some, Tree.member?, inner_held, Option.bind_some] at stands
        exact stands
      simp only [inner_held, absent]
      rw [SortedMap.insert_eq_self found, ← Tree.eq_object_of_members? held]

theorem metadata?_of_stringMap? {data : Tree} {field : String} {map : SortedMap String}
    (read : stringMap? data field = some map) :
    metadata? data field = some (.ofStringMap map) := by
  obtain ⟨tree, stands, read⟩ := Option.bind_eq_some_iff.1 read
  rw [stands, Tree.ext_json ((Tree.stringMap?_eq_some.1 read).trans (Tree.json_ofStringMap map).symm)]

theorem textual_of_stringMap? {data : Tree} {field : String} {map : SortedMap String}
    (read : stringMap? data field = some map) : Textual data field := by
  intro tree key value stands held
  cases (metadata?_of_stringMap? read).symm.trans stands
  rw [Tree.member?, Tree.ofStringMap, Tree.members?_object, Option.bind_some,
    SortedMap.find?_mapValues] at held
  obtain ⟨text, -, rfl⟩ := Option.map_eq_some_iff.1 held
  exact ⟨text, rfl⟩

/-- What a map in the metadata is to an object: one of strings, or missing, also if some entry of it is
no string. -/
inductive Room (data : Tree) (field : String) : Prop where
  | strings (map : SortedMap String) (read : stringMap? data field = some map)
  | missing (read : stringMap? data field = none)
    (missing : (metadata? data field).getD .null = .null)
  | foreign (foreign : ¬ Textual data field)

theorem Takes.room {data : Tree} {field : String} (takes : Takes data field) :
    Room data field := by
  cases stands : metadata? data field with
  | none => exact .missing (by rw [stringMap?, stands]; rfl) (by rw [stands]; rfl)
  | some map =>
    rcases takes.map map stands with isObject | rfl
    · obtain ⟨members, held⟩ := members?_of_isObject isObject
      by_cases textual : Textual data field
      · have texts (key : String) (value : Tree) (found : members.find? key = some value) :
            ∃ text, value = .string text :=
          textual map key value stands (by rw [Tree.member?, held, Option.bind_some, found])
        obtain ⟨strings, eq⟩ := Tree.exists_eq_ofStringMap texts
        refine .strings strings ?_
        rw [stringMap?, stands, Option.bind_some, Tree.eq_object_of_members? held, eq,
          Tree.stringMap?_ofStringMap]
      · exact .foreign textual
    · exact .missing (by rw [stringMap?, stands]; rfl) (by rw [stands]; rfl)

inductive MapField where
  | labels
  | annotations

namespace MapField

def name : MapField → String
  | .labels => "labels"
  | .annotations => "annotations"

def edit (field : MapField) (edit : MapEdit) : Edit :=
  match field with
  | .labels => .labels edit
  | .annotations => .annotations edit

theorem exists_edited (field : MapField) (edit : MapEdit) (data : Tree) :
    ∃ next, (Object.generic (ofTree data)).edit (field.edit edit) = .ok next ∧ next.toTree =
      writeMap data field.name (some (edit.apply ((stringMap? data field.name).getD ∅))) := by
  cases field with
  | labels => exact ⟨_, rfl, toTree_labels data _⟩
  | annotations => exact ⟨_, rfl, toTree_annotations data _⟩

end MapField

theorem writeMap_of_stringMap? {data : Tree} {field : String} {map : SortedMap String}
    (read : stringMap? data field = some map) (next : SortedMap String) :
    writeMap data field (some next) = setMetadata data field (.ofStringMap next) := by
  by_cases same : map = next
  · rw [← same, ← read, writeMap_stringMap?,
      setMetadata_eq_of_metadata? (metadata?_of_stringMap? read)]
  · simp [writeMap, read, same]

theorem writeMap_of_missing {data : Tree} {field : String} (read : stringMap? data field = none)
    (next : SortedMap String) : writeMap data field (some next) =
      if next.isEmpty then data else setMetadata data field (.ofStringMap next) := by
  simp [writeMap, read]

/-- Where every entry is a string an edit of one entry is an edit of that entry in the tree. -/
theorem writeMap_entry {data : Tree} {field : String} (takes : Takes data field)
    (textual : Textual data field) (key value : String) :
    writeMap data field (some (((stringMap? data field).getD ∅).insert key value)) =
        withEntry data field key value ∧
      writeMap data field (some (((stringMap? data field).getD ∅).erase key)) =
        withoutEntry data field key := by
  cases takes.room with
  | strings map read =>
    have stands : metadata? data field = some (.ofStringMap map) := metadata?_of_stringMap? read
    rw [withEntry_eq takes.root, withoutEntry, modifyAt_metadata stands, read, stands,
      Option.getD_some, Option.getD_some, writeMap_of_stringMap? read, writeMap_of_stringMap? read,
      Tree.withMember_ofStringMap, Tree.withoutMember_ofStringMap]
    exact ⟨rfl, rfl⟩
  | missing read missing =>
    rw [withEntry_eq takes.root, withoutEntry_of_missing takes missing, missing,
      writeMap_of_missing read, writeMap_of_missing read, read]
    exact ⟨rfl, rfl⟩
  | foreign foreign => exact absurd textual foreign

/-- Where some entry is no string, all of them make way for the one that is set, and none is taken
out. -/
theorem writeMap_foreign {data : Tree} {field : String} (foreign : ¬ Textual data field)
    (key value : String) :
    writeMap data field (some (((stringMap? data field).getD ∅).insert key value)) =
        data.modifyAt ["metadata", field] (fun _ =>
          .ofStringMap ((∅ : SortedMap String).insert key value)) ∧
      writeMap data field (some (((stringMap? data field).getD ∅).erase key)) = data := by
  have read : stringMap? data field = none :=
    Option.eq_none_iff_forall_not_mem.2 fun map read => foreign (textual_of_stringMap? read)
  cases stands : metadata? data field with
  | none =>
    refine absurd (fun map key value there => ?_) foreign
    cases stands.symm.trans there
  | some map =>
    rw [modifyAt_metadata stands, writeMap_of_missing read, writeMap_of_missing read, read]
    exact ⟨rfl, rfl⟩

/-- An edit of one entry of the labels or annotations of an object that was made of a tree. If all
entries are strings, it shows in that entry of the written tree and nowhere else. If one of them is
not, setting an entry drops all the others, and taking one out does nothing. -/
theorem edit_entry {data : Tree} {field : MapField} (takes : Takes data field.name)
    (key value : String) :
    ∃ start inserted erased, ofTree? data = some start ∧
      (Object.generic start).edit (field.edit (.insert key value)) = .ok inserted ∧
      (Object.generic start).edit (field.edit (.erase key)) = .ok erased ∧
      (Textual data field.name →
        inserted.toTree = withEntry data field.name key value ∧
        erased.toTree = withoutEntry data field.name key) ∧
      (¬ Textual data field.name →
        inserted.toTree = data.modifyAt ["metadata", field.name] (fun _ =>
          .ofStringMap ((∅ : SortedMap String).insert key value)) ∧
        erased.toTree = data) := by
  obtain ⟨inserted, insert, inserted_eq⟩ := field.exists_edited (.insert key value) data
  obtain ⟨erased, erase, erased_eq⟩ := field.exists_edited (.erase key) data
  refine ⟨ofTree data, inserted, erased, if_pos takes.root, insert, erase, fun textual => ?_,
    fun foreign => ?_⟩
  · rw [inserted_eq, erased_eq]
    exact writeMap_entry takes textual key value
  · rw [inserted_eq, erased_eq]
    exact writeMap_foreign foreign key value

/-- A tree whose annotations are strings and whose labels are not. -/
def ranked : Tree :=
  let rank : Tree := .number (.integer 1 (by decide))
  .object (.ofList [("metadata", .object (.ofList [
    ("annotations", .object (.ofList [("owner", .string "ops")])),
    ("labels", .object (.ofList [("app", .string "web"), ("rank", rank)]))]))])

theorem takes_ranked (field : MapField) : Takes ranked field.name where
  root := rfl
  metadata := by
    intro tree there
    cases there
    rfl
  map := by
    intro tree there
    cases field <;> cases there <;> exact .inl rfl

theorem textual_ranked : Textual ranked "annotations" := by
  have read : stringMap? ranked "annotations" =
      some ((∅ : SortedMap String).insert "owner" "ops") := rfl
  exact textual_of_stringMap? read

/-- An annotation is set and taken out, and the labels stay as they are. -/
theorem edit_entry_ranked : Takes ranked "annotations" ∧ Textual ranked "annotations" ∧
    ∃ start inserted erased, ofTree? ranked = some start ∧
      (Object.generic start).edit (.annotations (.insert "tier" "db")) = .ok inserted ∧
      (Object.generic start).edit (.annotations (.erase "tier")) = .ok erased ∧
      inserted.toTree = withEntry ranked "annotations" "tier" "db" ∧
      erased.toTree = withoutEntry ranked "annotations" "tier" ∧
      inserted.toJson.metadata? "labels" = ranked.json.metadata? "labels" := by
  obtain ⟨start, inserted, erased, made, insert, erase, textual, -⟩ :=
    edit_entry (takes_ranked .annotations) "tier" "db"
  obtain ⟨inserted_eq, erased_eq⟩ := textual textual_ranked
  refine ⟨takes_ranked .annotations, textual_ranked, start, inserted, erased, made, insert, erase,
    inserted_eq, erased_eq, ?_⟩
  rw [Object.toJson, inserted_eq]
  rfl

def label? (tree : Tree) (key : String) : Option Json :=
  (tree.json.metadata? "labels").bind (·.member? key)

/-- A label that is set beside a number takes the place of all the others, and a label beside a number
is not taken out. -/
theorem entry_beside_number_fails : Takes ranked "labels" ∧ ∃ start inserted erased,
    ofTree? ranked = some start ∧
    (Object.generic start).edit (.labels (.insert "team" "x")) = .ok inserted ∧
    (Object.generic start).edit (.labels (.erase "app")) = .ok erased ∧
    inserted.toTree ≠ withEntry ranked "labels" "team" "x" ∧
    erased.toTree ≠ withoutEntry ranked "labels" "app" := by
  refine ⟨takes_ranked .labels, _, _, _, rfl, rfl, rfl, fun eq => ?_, fun eq => ?_⟩
  · have kept := congrArg (fun tree => (label? tree "app").isSome) eq
    exact absurd kept (by decide)
  · have gone := congrArg (fun tree => (label? tree "app").isSome) eq
    exact absurd gone (by decide)

end Generic

end Admission
