import Mathlib.Data.List.TakeWhile
import Admission.Proofs.Kubernetes.Reading
import Admission.Proofs.Object.Coherence

/-! An object of a known kind is written as it was decoded. -/

set_option autoImplicit false

namespace Admission

open Json (Tree)

theorem SortedMap.find?_filterKeys {α : Type} (map : SortedMap α) (keep : String → Bool)
    (key : String) : (map.filterKeys keep).find? key = if keep key then map.find? key else none := by
  obtain ⟨entries, sorted⟩ := map
  show Entries.find? (entries.filter fun entry => keep entry.1) key =
    if keep key then Entries.find? entries key else none
  clear sorted
  induction entries with
  | nil => simp [Entries.find?]
  | cons entry entries ih =>
    obtain ⟨name, value⟩ := entry
    by_cases eq : name = key
    · subst eq
      cases kept : keep name with
      | true => simp [Entries.find?, kept]
      | false => simpa [Entries.find?, kept] using ih
    · cases kept : keep name <;> simp [Entries.find?, kept, eq, ih]

theorem find?_insertOptional (members : SortedMap Tree) (name : String) (value : Option Tree)
    (key : String) : (insertOptional members name value).find? key =
      if key = name then value.or (members.find? key) else members.find? key := by
  cases value with
  | none => simp [insertOptional]
  | some value => simp [insertOptional]

namespace Kubernetes

namespace Kind

theorem lookup_insertField (field : Field) (fields : List Field) (key : String) :
    (schema.insertField field fields).lookup key =
      if key = field.1 then some field.2 else fields.lookup key := by
  obtain ⟨name, field⟩ := field
  have split : fields = fields.takeWhile (·.1 < name) ++ fields.dropWhile (·.1 < name) :=
    (List.takeWhile_append_dropWhile ..).symm
  rw [schema.insertField, Entries.lookup_eq_find?, Entries.lookup_eq_find?, Entries.find?_append]
  by_cases eq : key = name
  · -- the fields in front are those with smaller names
    have absent : Entries.find? (fields.takeWhile (·.1 < name)) key = none :=
      Entries.find?_eq_none_of_not_mem fun mem => by
        obtain ⟨field, before, rfl⟩ := List.mem_map.1 mem
        have lt := List.mem_takeWhile_imp before
        rw [decide_eq_true_eq, eq] at lt
        exact String.lt_irrefl _ lt
    rw [absent, if_pos eq, Entries.find?, if_pos eq.symm]
    rfl
  · rw [if_neg eq, Entries.find?, if_neg (Ne.symm eq), ← Entries.find?_append, ← split]

theorem exists_fields (kind : Kind) : ∃ fields, kind.schema = .record kind.name fields ∧
    ∀ key, fields.lookup key =
      if key = "metadata" then some (.defaulted, objectMeta)
      else if key = "kind" then some (.defaulted, .constant kind.name)
      else if key = "apiVersion" then some (.defaulted, .constant kind.apiVersion)
      else kind.fields.lookup key :=
  ⟨_, rfl, fun key => by simp only [lookup_insertField]⟩

end Kind

end Kubernetes

namespace ObjectMeta

structure Texts (members : SortedMap Tree) : Prop where
  strings : ∀ key ∈ ["name", "namespace"], ∀ tree ∈ members.find? key, ∃ text, tree = .string text
  maps : ∀ key ∈ ["annotations", "labels"], ∀ tree ∈ members.find? key, ∃ map, tree = .ofStringMap map

theorem toTree_ofMembers {members : SortedMap Tree} (texts : Texts members) :
    (ofMembers members).toTree = .object members := by
  have string (key : String) (mem : key ∈ ["name", "namespace"]) :
      ((members.find? key).bind Tree.string?).map .string = members.find? key := by
    cases held : members.find? key with
    | none => rfl
    | some tree =>
      obtain ⟨text, rfl⟩ := texts.strings key mem tree held
      rfl
  have map (key : String) (mem : key ∈ ["annotations", "labels"]) :
      ((members.find? key).bind Tree.stringMap?).map .ofStringMap = members.find? key := by
    cases held : members.find? key with
    | none => rfl
    | some tree =>
      obtain ⟨map, rfl⟩ := texts.maps key mem tree held
      rw [Option.bind_some, Tree.stringMap?_ofStringMap]
      rfl
  refine congrArg Tree.object (SortedMap.ext_find? fun key => ?_)
  simp only [find?_insertOptional, ofMembers, SortedMap.find?_filterKeys]
  rw [string "namespace" (by simp), string "name" (by simp), map "labels" (by simp),
    map "annotations" (by simp)]
  by_cases listed : key ∈ fieldNames
  · simp only [fieldNames, List.mem_cons, List.not_mem_nil, or_false] at listed
    rcases listed with rfl | rfl | rfl | rfl <;> simp [fieldNames]
  · simp only [fieldNames, List.mem_cons, List.not_mem_nil, or_false, not_or] at listed
    simp [fieldNames, listed]

theorem exists_fields : ∃ fields, Kubernetes.objectMeta = .record "ObjectMeta" fields ∧
    (∀ key ∈ ["name", "namespace"], fields.lookup key = some (.optional, .string)) ∧
    ∀ key ∈ ["annotations", "labels"], fields.lookup key = some (.optional, .map .string) :=
  ⟨_, rfl, by simp [List.lookup_cons], by simp [List.lookup_cons]⟩

theorem texts_of_reads {members : Entries Json} (canonical : (Json.object members).Canonical)
    {map : SortedMap Tree}
    (reads : ∀ key, Kubernetes.MemberRead Kubernetes.objectMeta key (Entries.find? members key)
      (map.find? key)) : Texts map := by
  obtain ⟨fields, eq, strings, maps⟩ := exists_fields
  rw [eq] at reads
  constructor
  · intro key mem tree held
    have read := (reads key).fieldRead (strings key mem)
    rw [held] at read
    obtain ⟨json, -, decoded⟩ := read.decode_of_optional
    exact Kubernetes.eq_string_of_decode decoded
  · intro key mem tree held
    have read := (reads key).fieldRead (maps key mem)
    rw [held] at read
    obtain ⟨json, there, decoded⟩ := read.decode_of_optional
    exact Kubernetes.eq_ofStringMap_of_decode
      (canonical.of_mem_members _ (Entries.mem_of_find? there)) decoded

theorem toTree_of_fieldRead {member : Option Json} (canonical : ∀ json ∈ member, json.Canonical)
    {written : Option Tree}
    (read : Kubernetes.FieldRead .defaulted Kubernetes.objectMeta member written) :
    written = some (ofMembers ((written.bind Tree.members?).getD ∅)).toTree := by
  have eq_object {map : SortedMap Tree} (texts : Texts map) : some (Tree.object map) =
      some (ofMembers (((some (Tree.object map)).bind Tree.members?).getD ∅)).toTree := by
    rw [Option.bind_some, Tree.members?_object, Option.getD_some, toTree_ofMembers texts]
  cases read with
  | @decoded json tree _ decoded =>
    obtain ⟨members, rfl⟩ := Kubernetes.decode_record_of_ok decoded
    have members_canonical := canonical _ rfl
    obtain ⟨map, rfl, reads⟩ := (Kubernetes.decode_object_iff (by decide +kernel)
      members_canonical.members_sorted).1 decoded
    exact eq_object (texts_of_reads members_canonical reads)
  | filled =>
    have none (key : String) : (∅ : SortedMap Tree).find? key = none := rfl
    exact eq_object ⟨fun key _ tree held => (nomatch held), fun key _ tree held => (nomatch held)⟩
  | omitted _ optional => cases optional

end ObjectMeta

namespace Typed

theorem decode_toTree {kind : Kubernetes.Kind} {json : Json} (canonical : json.Canonical)
    {object : Typed} (decoded : decode kind json = .ok object) :
    object.kind = kind ∧ Kubernetes.decode kind.schema json = .ok object.toTree := by
  obtain ⟨tree, tree_decoded, rfl⟩ := Json.map_eq_ok decoded
  refine ⟨rfl, tree_decoded.trans (congrArg Except.ok ?_)⟩
  have distinct := kind.distinct_schema
  obtain ⟨fields, eq, lookup⟩ := kind.exists_fields
  rw [eq] at tree_decoded distinct
  obtain ⟨members, rfl⟩ := Kubernetes.decode_record_of_ok tree_decoded
  obtain ⟨map, rfl, reads⟩ :=
    (Kubernetes.decode_object_iff distinct canonical.members_sorted).1 tree_decoded
  have metadata := ObjectMeta.toTree_of_fieldRead
    (fun json there => canonical.of_mem_members _ (Entries.mem_of_find? there))
    ((reads "metadata").fieldRead (by rw [lookup]; rfl))
  have kind_eq := ((reads "kind").fieldRead (by rw [lookup]; rfl)).constant
  have version_eq := ((reads "apiVersion").fieldRead (by rw [lookup]; rfl)).constant
  rw [Tree.members?_object, Option.getD_some]
  refine congrArg Tree.object (SortedMap.ext_find? fun key => ?_)
  simp only [ofMembers, SortedMap.find?_insert, SortedMap.find?_filterKeys]
  by_cases listed : key ∈ fieldNames
  · simp only [fieldNames, List.mem_cons, List.not_mem_nil, or_false] at listed
    rcases listed with rfl | rfl | rfl
    · simp [version_eq]
    · simp [kind_eq]
    · simpa using metadata
  · simp only [fieldNames, List.mem_cons, List.not_mem_nil, or_false, not_or] at listed
    simp [fieldNames, listed]

end Typed

end Admission
