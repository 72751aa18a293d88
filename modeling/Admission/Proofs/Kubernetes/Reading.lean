import Admission.Proofs.Json.Difference
import Admission.Proofs.Kubernetes.Decoding

/-! Values that are decoded to what is the same as another value, array by array and object by object,
and the forms that are decoded to themselves. -/

set_option autoImplicit false

namespace Admission

namespace Kubernetes

open Json (Tree sameItems)

mutual

def Schema.distinct : Schema → Bool
  | .list item => item.distinct
  | .map value => value.distinct
  | .record _ fields => decide (fields.map Prod.fst).Nodup && distinctFields fields
  | _ => true

def distinctFields : List Field → Bool
  | [] => true
  | (_, _, schema) :: fields => schema.distinct && distinctFields fields

end

theorem Kind.mem_all (kind : Kind) : kind ∈ all := by
  cases kind <;> decide

theorem Kind.distinct_schema (kind : Kind) : kind.schema.distinct = true := by
  -- all kinds at once: they share most of the types that their fields are of
  have each : all.all (·.schema.distinct) = true := by decide +kernel
  exact List.all_eq_true.1 each kind kind.mem_all

theorem distinct_of_lookup {fields : List Field} (distinct : distinctFields fields = true)
    {key : String} {presence : Presence} {schema : Schema}
    (known : fields.lookup key = some (presence, schema)) : schema.distinct = true := by
  induction fields with
  | nil => cases known
  | cons field fields ih =>
    obtain ⟨name, first, inner⟩ := field
    rw [distinctFields, Bool.and_eq_true] at distinct
    rw [List.lookup_cons] at known
    split at known
    · cases known
      exact distinct.1
    · exact ih distinct.2 known

def Schema.item? : Schema → Option Schema
  | .list item => some item
  | .anything => some .anything
  | _ => none

def Schema.value? : Schema → Option Schema
  | .map value => some value
  | .anything => some .anything
  | _ => none

theorem distinct_of_item? {schema item : Schema} (distinct : schema.distinct = true)
    (known : schema.item? = some item) : item.distinct = true := by
  cases schema with
  | list item => cases known; exact distinct
  | anything => cases known; rfl
  | _ => cases known

theorem distinct_of_value? {schema value : Schema} (distinct : schema.distinct = true)
    (known : schema.value? = some value) : value.distinct = true := by
  cases schema with
  | map value => cases known; exact distinct
  | anything => cases known; rfl
  | _ => cases known

/-- What is written under a key of an object. -/
inductive MemberRead : Schema → String → Option Json → Option Tree → Prop where
  | value {schema value : Schema} {key : String} {member : Option Json} {written : Option Tree}
    (known : schema.value? = some value)
    (read : Option.Rel (fun json tree => decode value json = .ok tree) member written) :
    MemberRead schema key member written
  | unknown {name : String} {fields : List Field} {key : String} {member : Option Json}
    (unknown : fields.lookup key = none) : MemberRead (.record name fields) key member none
  | field {name : String} {fields : List Field} {key : String} {field : Presence × Schema}
    {member : Option Json} {written : Option Tree} (known : fields.lookup key = some field)
    (read : FieldRead field.1 field.2 member written) :
    MemberRead (.record name fields) key member written

theorem decode_anything_array (items : List Json) :
    decode .anything (.array items) = decode (.list .anything) (.array items) := by
  have decoded : decodeItems .anything items = .ok (Tree.ofItems items) := by
    induction items with
    | nil => rfl
    | cons item items ih => rw [decodeItems, decode_anything, ih]; rfl
  rw [decode_anything, decode, decoded]
  rfl

theorem decode_anything_object (members : Entries Json) :
    decode .anything (.object members) = decode (.map .anything) (.object members) := by
  have decoded : decodeValues .anything members = .ok (Tree.ofMembers members) := by
    induction members with
    | nil => rfl
    | cons member members ih => rw [decodeValues, decode_anything, ih]; rfl
  rw [decode_anything, decode, decoded]
  rfl

theorem decode_array_iff {schema : Schema} {items : List Json} {tree : Tree} :
    decode schema (.array items) = .ok tree ↔ ∃ item trees, schema.item? = some item ∧
      tree = .array trees ∧ List.Forall₂ (fun json tree => decode item json = .ok tree) items trees := by
  cases schema with
  | list item => simp [Schema.item?, decode_list_iff]
  | anything => simp [Schema.item?, decode_anything_array, decode_list_iff]
  | _ => simp [Schema.item?, decode, decodeScalar, decodeString, decodeConstant, decodeInteger,
      decodeBytes, decodeTime, unexpected]

theorem decode_object_iff {schema : Schema} (distinct : schema.distinct = true)
    {members : Entries Json} (sorted : members.Sorted) {tree : Tree} :
    decode schema (.object members) = .ok tree ↔ ∃ map : SortedMap Tree, tree = .object map ∧
      ∀ key, MemberRead schema key (Entries.find? members key) (map.find? key) := by
  -- a schema of another shape refuses an object, and no member is read under it
  have refused (error : Json.Mismatch) (decoded : decode schema (.object members) = .error error)
      (none : ∀ member written, ¬ MemberRead schema "" member written) :
      decode schema (.object members) = .ok tree ↔ ∃ map : SortedMap Tree, tree = .object map ∧
        ∀ key, MemberRead schema key (Entries.find? members key) (map.find? key) := by
    rw [decoded]
    exact ⟨nofun, fun ⟨map, _, reads⟩ => absurd (reads "") (none _ _)⟩
  have of_value {schema value : Schema} (known : schema.value? = some value) :
      (∃ map : SortedMap Tree, tree = .object map ∧ ∀ key, Option.Rel
        (fun json tree => decode value json = .ok tree) (Entries.find? members key)
        (map.find? key)) ↔ ∃ map : SortedMap Tree, tree = .object map ∧
          ∀ key, MemberRead schema key (Entries.find? members key) (map.find? key) := by
    refine exists_congr fun map => and_congr_right fun _ => forall_congr' fun key => ?_
    generalize Entries.find? members key = member, map.find? key = written
    refine ⟨.value known, fun read => ?_⟩
    cases read with
    | value again read => cases known.symm.trans again; exact read
    | unknown | field => cases known
  cases schema with
  | map value =>
    rw [decode_map_iff sorted]
    exact of_value rfl
  | anything =>
    rw [decode_anything_object, decode_map_iff sorted]
    exact of_value rfl
  | record name fields =>
    rw [Schema.distinct, Bool.and_eq_true, decide_eq_true_eq] at distinct
    rw [decode_record_iff distinct.1 sorted]
    constructor
    · rintro ⟨map, eq, unknown, known⟩
      refine ⟨map, eq, fun key => ?_⟩
      cases found : fields.lookup key with
      | none => rw [unknown key found]; exact .unknown found
      | some field => exact .field found (known key field found)
    · rintro ⟨map, eq, reads⟩
      refine ⟨map, eq, fun key unknown => ?_, fun key field known => ?_⟩
      · have read := reads key
        generalize map.find? key = written at read
        cases read with
        | value known => cases known
        | unknown => rfl
        | field known => rw [unknown] at known; cases known
      · have read := reads key
        generalize map.find? key = written at read
        cases read with
        | value known => cases known
        | unknown unknown => rw [unknown] at known; cases known
        | field found read => rw [known] at found; cases found; exact read
  | _ => exact refused _ rfl nofun

/-- A value is decoded to what is the same as another one. -/
def Reads (schema : Schema) (json value : Json) : Prop :=
  ∃ tree, decode schema json = .ok tree ∧ tree.json.same value = true

theorem Reads.of_decode {schema : Schema} {json : Json} {tree : Tree}
    (decoded : decode schema json = .ok tree) : Reads schema json tree.json :=
  ⟨tree, decoded, Json.same_refl _⟩

theorem Reads.of_same {schema : Schema} {json value other : Json} (reads : Reads schema json value)
    (same : value.same other = true) : Reads schema json other := by
  obtain ⟨tree, decoded, eq⟩ := reads
  exact ⟨tree, decoded, Json.same_trans eq same⟩

theorem same_object_iff {map : SortedMap Tree} {members : Entries Json} (sorted : members.Sorted) :
    (Tree.object map).json.same (.object members) = true ↔
      ∀ key, Option.Rel (fun (tree : Tree) value => tree.json.same value = true) (map.find? key)
        (Entries.find? members key) := by
  have written_find (key : String) :
      Entries.find? (map.entries.mapValues Tree.json) key = (map.find? key).map Tree.json :=
    Entries.find?_mapValues Tree.json map.entries key
  have written_sorted : (map.entries.mapValues Tree.json).Sorted := by
    rw [Entries.Sorted, Entries.keys_mapValues]
    exact map.sorted
  rw [Tree.object, Json.same, Json.sameMembers_iff_forall₂]
  constructor
  · intro pairs key
    have related := Entries.find?_rel_of_forall₂
      (R := fun json value : Json => json.same value = true) pairs key
    rw [written_find] at related
    generalize map.find? key = written, Entries.find? members key = value at related ⊢
    cases written with
    | none => cases related; exact .none
    | some tree =>
      cases related with
      | some same => exact .some same
  · intro related
    refine Entries.forall₂_of_find? (R := fun json value : Json => json.same value = true)
      written_sorted sorted fun key => ?_
    have here := related key
    rw [written_find]
    generalize map.find? key = written, Entries.find? members key = value at here ⊢
    cases here with
    | none => exact .none
    | some same => exact .some same

theorem same_array_iff {trees : List Tree} {items : List Json} :
    (Tree.array trees).json.same (.array items) = true ↔
      List.Forall₂ (fun (tree : Tree) value => tree.json.same value = true) trees items := by
  rw [Tree.array, Json.same]
  induction trees generalizing items with
  | nil => cases items <;> simp [sameItems]
  | cons tree trees ih => cases items <;> simp [sameItems, ih]

theorem eq_array_of_same {json : Json} {items : List Json}
    (same : json.same (.array items) = true) : ∃ written, json = .array written := by
  cases json with
  | array written => exact ⟨written, rfl⟩
  | _ => simp [Json.same] at same

theorem eq_object_of_same {json : Json} {members : Entries Json}
    (same : json.same (.object members) = true) : ∃ written, json = .object written := by
  cases json with
  | object written => exact ⟨written, rfl⟩
  | _ => simp [Json.same] at same

theorem Reads.exists_items {schema : Schema} {json : Json} {items : List Json}
    (reads : Reads schema json (.array items)) : ∃ received, json = .array received := by
  obtain ⟨tree, decoded, same⟩ := reads
  obtain ⟨written, array⟩ := eq_array_of_same same
  rcases decode_eq_array decoded array with rfl | ⟨-, received, -, eq⟩
  · rw [decode_anything] at decoded
    cases decoded
    cases json with
    | array received => exact ⟨received, rfl⟩
    | _ => cases array
  · exact ⟨received, eq⟩

theorem Reads.exists_members {schema : Schema} {json : Json} {members : Entries Json}
    (reads : Reads schema json (.object members)) : ∃ received, json = .object received := by
  obtain ⟨tree, decoded, same⟩ := reads
  obtain ⟨written, object⟩ := eq_object_of_same same
  rcases decode_eq_object decoded object with rfl | ⟨received, eq, -⟩
  · rw [decode_anything] at decoded
    cases decoded
    cases json with
    | object received => exact ⟨received, rfl⟩
    | _ => cases object
  · exact ⟨received, eq⟩

theorem reads_array_iff {schema : Schema} {items values : List Json} :
    Reads schema (.array items) (.array values) ↔
      ∃ item, schema.item? = some item ∧ List.Forall₂ (Reads item) items values := by
  constructor
  · rintro ⟨tree, decoded, same⟩
    obtain ⟨item, trees, known, rfl, pairs⟩ := decode_array_iff.1 decoded
    have sames := same_array_iff.1 same
    refine ⟨item, known, ?_⟩
    clear decoded same
    induction pairs generalizing values with
    | nil => cases sames; exact .nil
    | cons first rest ih =>
      cases sames with
      | cons same sames => exact .cons ⟨_, first, same⟩ (ih sames)
  · rintro ⟨item, known, reads⟩
    suffices read : ∃ trees : List Tree,
        List.Forall₂ (fun json tree => decode item json = .ok tree) items trees ∧
        List.Forall₂ (fun (tree : Tree) value => tree.json.same value = true) trees values by
      obtain ⟨trees, pairs, sames⟩ := read
      exact ⟨.array trees, decode_array_iff.2 ⟨item, trees, known, rfl, pairs⟩,
        same_array_iff.2 sames⟩
    induction reads with
    | nil => exact ⟨[], .nil, .nil⟩
    | cons first rest ih =>
      obtain ⟨tree, decoded, same⟩ := first
      obtain ⟨trees, pairs, sames⟩ := ih
      exact ⟨tree :: trees, .cons decoded pairs, .cons same sames⟩

/-- What stands under a key of an object is read as what stands there in another one. -/
def MemberReads (schema : Schema) (key : String) (member value : Option Json) : Prop :=
  ∃ written, MemberRead schema key member written ∧
    Option.Rel (fun (tree : Tree) value => tree.json.same value = true) written value

theorem reads_object_iff {schema : Schema} (distinct : schema.distinct = true)
    {members values : Entries Json} (sorted : members.Sorted) (values_sorted : values.Sorted) :
    Reads schema (.object members) (.object values) ↔
      ∀ key, MemberReads schema key (Entries.find? members key) (Entries.find? values key) := by
  constructor
  · rintro ⟨tree, decoded, same⟩ key
    obtain ⟨map, rfl, reads⟩ := (decode_object_iff distinct sorted).1 decoded
    exact ⟨map.find? key, reads key, (same_object_iff values_sorted).1 same key⟩
  · intro reads
    choose written read same using reads
    obtain ⟨map, finds⟩ := SortedMap.exists_find? values_sorted written fun key => by
      have related := same key
      generalize written key = tree, Entries.find? values key = value at related
      cases related <;> rfl
    refine ⟨.object map, (decode_object_iff distinct sorted).2 ⟨map, rfl, fun key => ?_⟩,
      (same_object_iff values_sorted).2 fun key => ?_⟩
    · rw [finds key]; exact read key
    · rw [finds key]; exact same key

theorem decode_record_of_ok {name : String} {fields : List Field} {json : Json} {tree : Tree}
    (decoded : decode (.record name fields) json = .ok tree) :
    ∃ members, json = .object members := by
  cases json with
  | object members => exact ⟨members, rfl⟩
  | _ => cases decoded

variable {name : String} {fields : List Field} {key : String}

theorem MemberRead.fieldRead {field : Presence × Schema} (known : fields.lookup key = some field)
    {member : Option Json} {written : Option Tree}
    (read : MemberRead (.record name fields) key member written) :
    FieldRead field.1 field.2 member written := by
  cases read with
  | value known => cases known
  | unknown unknown => rw [known] at unknown; cases unknown
  | field again read => cases known.symm.trans again; exact read

theorem FieldRead.constant {text : String} {member : Option Json} {written : Option Tree}
    (read : FieldRead .defaulted (.constant text) member written) : written = some (.string text) := by
  cases read with
  | @decoded json tree counts decoded =>
    cases json with
    | string given =>
      simp only [decode, decodeScalar, decodeConstant] at decoded
      split at decoded
      · cases decoded; rfl
      · cases decoded
    | _ => cases decoded
  | filled => rfl
  | omitted _ optional => cases optional

theorem eq_string_of_decode {json : Json} {tree : Tree} (decoded : decode .string json = .ok tree) :
    ∃ text, tree = .string text := by
  cases json with
  | string text => cases decoded; exact ⟨text, rfl⟩
  | _ => cases decoded

theorem eq_ofStringMap_of_decode {json : Json} (canonical : json.Canonical) {tree : Tree}
    (decoded : decode (.map .string) json = .ok tree) : ∃ map, tree = .ofStringMap map := by
  cases json with
  | object members =>
    obtain ⟨map, rfl, reads⟩ := (decode_map_iff canonical.members_sorted).1 decoded
    have string (key : String) (tree : Tree) (held : map.find? key = some tree) :
        ∃ text, tree = .string text := by
      have read := reads key
      rw [held] at read
      generalize Entries.find? members key = member at read
      cases read with
      | some decoded => exact eq_string_of_decode decoded
    have beside (key : String) :
        ((map.find? key).bind Tree.string?).isSome = (map.find? key).isSome := by
      cases held : map.find? key with
      | none => rfl
      | some tree =>
        obtain ⟨text, rfl⟩ := string key tree held
        rfl
    obtain ⟨strings, finds⟩ := SortedMap.exists_find? map.sorted _ beside
    refine ⟨strings, congrArg Tree.object (SortedMap.ext_find? fun key => ?_)⟩
    rw [SortedMap.find?_mapValues, finds key]
    cases held : map.find? key with
    | none => rfl
    | some tree =>
      obtain ⟨text, rfl⟩ := string key tree held
      rfl
  | _ => cases decoded

theorem FieldRead.decode_of_optional {schema : Schema} {member : Option Json} {tree : Tree}
    (read : FieldRead .optional schema member (some tree)) :
    ∃ json, member = some json ∧ decode schema json = .ok tree := by
  cases read with
  | decoded _ decoded => exact ⟨_, rfl, decoded⟩
  | filled _ defaulted => cases defaulted

/-! ## Forms that read back -/

theorem eq_null_of_skipsNull {schema : Schema} {json : Json} (skips : schema.skipsNull json = true) :
    json = .null := by
  cases json with
  | null => rfl
  | _ => cases schema <;> cases skips

theorem reads_self_iff {schema : Schema} (distinct : schema.distinct = true) {map : SortedMap Tree} :
    Reads schema (Tree.object map).json (Tree.object map).json ↔
      ∀ key, MemberReads schema key ((map.find? key).map Tree.json)
        ((map.find? key).map Tree.json) := by
  have sorted : (map.entries.mapValues Tree.json).Sorted := (map.mapValues Tree.json).sorted
  rw [Tree.object, reads_object_iff distinct sorted sorted]
  exact forall_congr' fun key => by
    rw [show Entries.find? (map.entries.mapValues Tree.json) key = (map.find? key).map Tree.json from
      Entries.find?_mapValues Tree.json map.entries key]

/-- Null reads back only where anything does. -/
theorem Reads.ne_null_of_plain {schema : Schema} (plain : schema ≠ .anything) {json : Json}
    (reads : Reads schema json json) : json ≠ .null := by
  rintro rfl
  obtain ⟨tree, decoded, same⟩ := reads
  cases schema with
  | anything => exact plain rfl
  | bytes => cases decoded; cases same
  | _ => cases decoded

theorem MemberReads.of_known {field : Presence × Schema} (known : fields.lookup key = some field)
    (plain : field.2 ≠ .anything) {json : Json} (reads : Reads field.2 json json) :
    MemberReads (.record name fields) key (some json) (some json) := by
  have kept : field.2.skipsNull json = false := Bool.eq_false_iff.2 fun skips =>
    reads.ne_null_of_plain plain (eq_null_of_skipsNull skips)
  obtain ⟨tree, decoded, same⟩ := reads
  exact ⟨some tree, .field known (.decoded kept decoded), .some same⟩

theorem MemberReads.of_field {field : Presence × Schema} (known : fields.lookup key = some field)
    (plain : field.2 ≠ .anything) {json : Json}
    (reads : MemberReads (.record name fields) key (some json) (some json)) :
    Reads field.2 json json := by
  obtain ⟨presence, schema⟩ := field
  obtain ⟨written, read, same⟩ := reads
  cases same with
  | some same =>
  cases read.fieldRead known with
  | decoded _ decoded => exact ⟨_, decoded, same⟩
  | filled skips =>
    -- no default of another schema is written as null
    cases eq_null_of_skipsNull skips
    cases schema with
    | anything => exact absurd rfl plain
    | _ => cases same

theorem reads_self_of_edited (distinct : (Schema.record name fields).distinct = true)
    {map edited : SortedMap Tree}
    (reads : Reads (.record name fields) (Tree.object map).json (Tree.object map).json)
    {field : Presence × Schema} (known : fields.lookup key = some field) {value : Tree}
    (plain : field.2 ≠ .anything) (value_reads : Reads field.2 value.json value.json)
    (finds : ∀ k, edited.find? k = if k = key then some value else map.find? k) :
    Reads (.record name fields) (Tree.object edited).json (Tree.object edited).json := by
  refine (reads_self_iff distinct).2 fun k => ?_
  rw [finds k]
  split
  next eq => exact eq ▸ .of_known known plain value_reads
  next => exact (reads_self_iff distinct).1 reads k

theorem reads_string (text : String) : Reads .string (Tree.string text).json (Tree.string text).json :=
  ⟨.string text, rfl, Json.same_refl _⟩

theorem reads_ofStringMap (map : SortedMap String) :
    Reads (.map .string) (Tree.ofStringMap map).json (Tree.ofStringMap map).json := by
  refine (reads_self_iff (by decide +kernel)).2 fun key => ?_
  rw [SortedMap.find?_mapValues]
  refine ⟨(map.find? key).map Tree.string, .value rfl ?_, ?_⟩
  · cases map.find? key with
    | none => exact .none
    | some text => exact .some rfl
  · cases map.find? key with
    | none => exact .none
    | some text => exact .some (Json.same_refl _)

end Kubernetes

end Admission
