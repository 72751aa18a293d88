import Admission.Object.Generic
import Admission.Proofs.SortedMap

/-! A generic object is written as the tree it was made of, and what was not edited in it is written
as it was. -/

set_option autoImplicit false

namespace Admission

namespace Json.Tree

theorem ext_json {first second : Tree} (eq : first.json = second.json) : first = second := by
  cases first
  cases second
  cases eq
  rfl

theorem members?_object (members : SortedMap Tree) : (object members).members? = some members := by
  have entry_eq (entry : String × Tree) (canonical : entry.2.json.Canonical) :
      (entry.1, (⟨entry.2.json, canonical⟩ : Tree)) = entry := rfl
  obtain ⟨entries, sorted⟩ := members
  simp only [object, members?, Option.some.injEq, SortedMap.mk.injEq, Entries.mapValues,
    List.pmap_map, entry_eq]
  rw [List.pmap_eq_map, List.map_id']

theorem eq_object_of_members? {tree : Tree} {members : SortedMap Tree}
    (eq : tree.members? = some members) : tree = object members := by
  obtain ⟨json, canonical⟩ := tree
  cases json with
  | object entries =>
    cases eq
    refine ext_json (congrArg Json.object ?_)
    simp [Entries.mapValues, List.map_pmap]
  | _ => cases eq

theorem step?_object (members : SortedMap Tree) (key : String) :
    (object members).json.step? key = (members.find? key).map json :=
  Entries.find?_mapValues json members.entries key

end Json.Tree

namespace Generic

open Json (Tree Pointer)

theorem writeMap_stringMap? (data : Tree) (field : String) :
    writeMap data field (stringMap? data field) = data := by
  cases held : stringMap? data field with
  | none => rfl
  | some map => simp [writeMap, held]

theorem toTree_ofTree (data : Tree) : (ofTree data).toTree = data := by
  simp only [toTree, ofTree, writeMap_stringMap?]

/-- A way that leads neither into a field of the metadata nor to what holds it. -/
inductive Beside (data : Tree) (field : String) : Pointer → Prop where
  | elsewhere {step : String} (pointer : Pointer) (ne : step ≠ "metadata") :
    Beside data field (step :: pointer)
  | within {step : String} (pointer : Pointer) (ne : step ≠ field)
    (held : ((data.member? "metadata").bind Tree.members?).isSome = true) :
    Beside data field ("metadata" :: step :: pointer)

theorem at?_setMetadata {data : Tree} {field : String} (value : Tree) {pointer : Pointer}
    (beside : Beside data field pointer) :
    (setMetadata data field value).json.at? pointer = data.json.at? pointer := by
  rw [setMetadata]
  cases held_members : data.members? with
  | none => rfl
  | some members =>
    obtain rfl := Tree.eq_object_of_members? held_members
    cases beside with
    | elsewhere pointer ne =>
      simp only [Json.at?, Tree.step?_object, SortedMap.find?_insert, if_neg ne]
    | within pointer ne held =>
      rw [Tree.member?, held_members, Option.bind_some] at held
      -- the metadata is an object, so that it is not replaced but only added to
      obtain ⟨metadata, held⟩ := Option.isSome_iff_exists.1 held
      obtain ⟨tree, found, held⟩ := Option.bind_eq_some_iff.1 held
      obtain rfl := Tree.eq_object_of_members? held
      simp only [Json.at?, Tree.step?_object, SortedMap.find?_insert, found, if_pos, Option.map_some,
        Option.bind_some, Option.getD_some, held, if_neg ne]

theorem metadata?_setMetadata (data : Tree) {field other : String} (value : Tree)
    (ne : other ≠ field) : metadata? (setMetadata data field value) other = metadata? data other := by
  rw [setMetadata]
  cases held_members : data.members? with
  | none => rfl
  | some members =>
    simp only [metadata?, Tree.member?, Tree.members?_object, held_members, Option.bind_some,
      SortedMap.find?_insert, if_pos, if_neg ne]
    cases members.find? "metadata" with
    | none => rfl
    | some tree =>
      simp only [Option.bind_some]
      cases tree.members? <;> rfl

theorem Beside.setMetadata {data : Tree} {field other : String} {pointer : Pointer}
    (beside : Beside data other pointer) (value : Tree) :
    Beside (setMetadata data field value) other pointer := by
  cases beside with
  | elsewhere pointer ne => exact .elsewhere pointer ne
  | within pointer ne held =>
    refine .within pointer ne ?_
    rw [Generic.setMetadata]
    cases held_members : data.members? with
    | none => exact held
    | some members =>
      simp only [Tree.member?, Tree.members?_object, Option.bind_some, SortedMap.find?_insert,
        if_pos, Option.isSome_some]

/-- Writing a map into one field of the metadata does not show beside it, and does not show at all
if the field holds the map. -/
theorem at?_writeMap {data : Tree} {field : String} {map : Option (SortedMap String)}
    {pointer : Pointer} (kept : map = stringMap? data field ∨ Beside data field pointer) :
    (writeMap data field map).json.at? pointer = data.json.at? pointer := by
  rcases kept with rfl | beside
  · rw [writeMap_stringMap?]
  · cases map with
    | none => rfl
    | some map =>
      simp only [writeMap]
      split
      · rfl
      · exact at?_setMetadata _ beside

theorem stringMap?_writeMap (data : Tree) {field other : String} (map : Option (SortedMap String))
    (ne : other ≠ field) : stringMap? (writeMap data field map) other = stringMap? data other := by
  cases map with
  | none => rfl
  | some map =>
    simp only [writeMap]
    split
    · rfl
    · rw [stringMap?, metadata?_setMetadata data _ ne, ← stringMap?]

theorem toTree_labels (data : Tree) (labels : Option (SortedMap String)) :
    toTree ⟨data, labels, stringMap? data "annotations"⟩ = writeMap data "labels" labels := by
  have beside : stringMap? (writeMap data "labels" labels) "annotations" =
      stringMap? data "annotations" := stringMap?_writeMap data labels (by decide)
  rw [toTree, ← beside, writeMap_stringMap?]

theorem toTree_annotations (data : Tree) (annotations : Option (SortedMap String)) :
    toTree ⟨data, stringMap? data "labels", annotations⟩ =
      writeMap data "annotations" annotations := by
  rw [toTree, writeMap_stringMap?]

theorem Beside.writeMap {data : Tree} {field other : String} {pointer : Pointer}
    (beside : Beside data other pointer) (map : Option (SortedMap String)) :
    Beside (writeMap data field map) other pointer := by
  cases map with
  | none => exact beside
  | some map =>
    simp only [Generic.writeMap]
    split
    · exact beside
    · exact beside.setMetadata _

/-- A generic object holds what another value does at the end of a way, and neither its labels nor
its annotations were edited there. -/
structure Keeps (object : Generic) (value : Json) (pointer : Pointer) : Prop where
  data : object.data.json.at? pointer = value.at? pointer
  labels : object.labels = stringMap? object.data "labels" ∨ Beside object.data "labels" pointer
  annotations : object.annotations = stringMap? object.data "annotations" ∨
    Beside object.data "annotations" pointer

theorem Keeps.at?_toTree {object : Generic} {value : Json} {pointer : Pointer}
    (keeps : object.Keeps value pointer) : object.toTree.json.at? pointer = value.at? pointer := by
  -- the labels are written first, which the annotations do not show in
  have annotations : object.annotations =
      stringMap? (writeMap object.data "labels" object.labels) "annotations" ∨
      Beside (writeMap object.data "labels" object.labels) "annotations" pointer := by
    rw [stringMap?_writeMap object.data object.labels (by decide)]
    exact keeps.annotations.imp_right fun beside => beside.writeMap object.labels
  rw [toTree, at?_writeMap annotations, at?_writeMap keeps.labels, keeps.data]

end Generic

end Admission
