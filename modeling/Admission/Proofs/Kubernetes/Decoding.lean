import Admission.Kubernetes.Kind
import Admission.Proofs.Json.Reading
import Admission.Proofs.Object.Generic

/-! What the decoding of a Kubernetes type makes of the parts of a value: of the items of a list, the
values of a map, and the members of a record, field by field. -/

set_option autoImplicit false

namespace Admission

namespace Kubernetes

open Json (Mismatch Tree map_eq_ok)

def Leaf (json : Json) : Prop :=
  (∀ items, json ≠ .array items) ∧ ∀ members, json ≠ .object members

theorem leaf_bool (value : Bool) : Leaf (.bool value) :=
  ⟨fun _ => Json.noConfusion, fun _ => Json.noConfusion⟩

theorem leaf_number (value : Json.Number) : Leaf (.number value) :=
  ⟨fun _ => Json.noConfusion, fun _ => Json.noConfusion⟩

theorem leaf_string (text : String) : Leaf (.string text) :=
  ⟨fun _ => Json.noConfusion, fun _ => Json.noConfusion⟩

theorem decodeInteger_leaf {bits : Nat} {expected outOfRange : String} {json : Json} {tree : Tree}
    (decoded : decodeInteger bits expected outOfRange json = .ok tree) : Leaf tree.json := by
  cases json with
  | number value =>
    cases value with
    | integer value range =>
      simp only [decodeInteger] at decoded
      split at decoded
      · cases decoded; exact leaf_number _
      · cases decoded
    | float value => cases decoded
  | _ => cases decoded

theorem decodeScalar_leaf {schema : Schema} {json : Json} {tree : Tree}
    (decoded : decodeScalar schema json = .ok tree) : schema = .anything ∨ Leaf tree.json := by
  cases schema with
  | anything => exact .inl rfl
  | int32 | int64 => exact .inr (decodeInteger_leaf decoded)
  | intOrString =>
    refine .inr ?_
    cases json with
    | string text => cases decoded; exact leaf_string text
    | _ =>
      simp only [decodeScalar] at decoded
      exact decodeInteger_leaf decoded
  | boolean =>
    refine .inr ?_
    cases json with
    | bool value => cases decoded; exact leaf_bool value
    | _ => cases decoded
  | string =>
    refine .inr ?_
    cases json with
    | string text => cases decoded; exact leaf_string text
    | _ => cases decoded
  | constant text =>
    refine .inr ?_
    cases json with
    | string given =>
      simp only [decodeScalar, decodeConstant] at decoded
      split at decoded
      · cases decoded; exact leaf_string text
      · cases decoded
    | _ => cases decoded
  | quantity =>
    refine .inr ?_
    cases json with
    | string text => cases decoded; exact leaf_string text
    | number value => cases value <;> (cases decoded; exact leaf_string _)
    | _ => cases decoded
  | bytes =>
    refine .inr ?_
    simp only [decodeScalar, decodeBytes] at decoded
    split at decoded
    · cases decoded; exact leaf_string _
    · split at decoded
      · cases decoded; exact leaf_string _
      · cases decoded
    · cases decoded
  | time =>
    refine .inr ?_
    simp only [decodeScalar, decodeTime] at decoded
    split at decoded
    · split at decoded
      · cases decoded; exact leaf_string _
      · cases decoded
    · cases decoded
  | list item => cases decoded
  | map value => cases decoded
  | record name fields => cases decoded

theorem decode_eq_array {schema : Schema} {json : Json} {tree : Tree} {written : List Json}
    (decoded : decode schema json = .ok tree) (array : tree.json = .array written) :
    schema = .anything ∨ ∃ item items, schema = .list item ∧ json = .array items := by
  have scalar (decoded : decodeScalar schema json = .ok tree) : schema = .anything :=
    (decodeScalar_leaf decoded).resolve_right fun leaf => leaf.1 _ array
  cases json with
  | array items =>
    cases schema with
    | list item => exact .inr ⟨item, items, rfl, rfl⟩
    | _ => exact .inl (scalar decoded)
  | object members =>
    cases schema with
    | map value =>
      rw [decode] at decoded
      obtain ⟨trees, -, rfl⟩ := map_eq_ok decoded
      cases array
    | record name fields =>
      rw [decode] at decoded
      obtain ⟨trees, -, rfl⟩ := map_eq_ok decoded
      cases array
    | _ => exact .inl (scalar decoded)
  | _ => exact .inl (scalar decoded)

theorem decode_eq_object {schema : Schema} {json : Json} {tree : Tree} {written : Entries Json}
    (decoded : decode schema json = .ok tree) (object : tree.json = .object written) :
    schema = .anything ∨ ∃ members, json = .object members ∧
      ((∃ value, schema = .map value) ∨ ∃ name fields, schema = .record name fields) := by
  have scalar (decoded : decodeScalar schema json = .ok tree) : schema = .anything :=
    (decodeScalar_leaf decoded).resolve_right fun leaf => leaf.2 _ object
  cases json with
  | array items =>
    cases schema with
    | list item =>
      rw [decode] at decoded
      obtain ⟨trees, -, rfl⟩ := map_eq_ok decoded
      cases object
    | _ => exact .inl (scalar decoded)
  | object members =>
    cases schema with
    | map value => exact .inr ⟨members, rfl, .inl ⟨value, rfl⟩⟩
    | record name fields => exact .inr ⟨members, rfl, .inr ⟨name, fields, rfl⟩⟩
    | _ => exact .inl (scalar decoded)
  | _ => exact .inl (scalar decoded)

theorem decode_anything (json : Json) : decode .anything json = .ok (.ofJson json) := by
  cases json <;> rfl

theorem forall₂_of_decodeItems {schema : Schema} {items : List Json} {trees : List Tree}
    (decoded : decodeItems schema items = .ok trees) :
    List.Forall₂ (fun json tree => decode schema json = .ok tree) items trees := by
  induction items generalizing trees with
  | nil => cases decoded; exact .nil
  | cons item items ih =>
    rw [decodeItems] at decoded
    cases first : decode schema item with
    | error error => rw [first] at decoded; cases decoded
    | ok tree =>
      rw [first] at decoded
      obtain ⟨others, rest, rfl⟩ := map_eq_ok decoded
      exact .cons first (ih rest)

theorem decodeItems_of_forall₂ {schema : Schema} {items : List Json} {trees : List Tree}
    (decoded : List.Forall₂ (fun json tree => decode schema json = .ok tree) items trees) :
    decodeItems schema items = .ok trees := by
  induction decoded with
  | nil => rfl
  | cons first rest ih => rw [decodeItems, first, ih]; rfl

theorem decode_list_iff {schema : Schema} {items : List Json} {tree : Tree} :
    decode (.list schema) (.array items) = .ok tree ↔ ∃ trees, tree = .array trees ∧
      List.Forall₂ (fun json tree => decode schema json = .ok tree) items trees := by
  rw [decode]
  constructor
  · intro decoded
    obtain ⟨trees, items_decoded, rfl⟩ := map_eq_ok decoded
    exact ⟨trees, rfl, forall₂_of_decodeItems items_decoded⟩
  · rintro ⟨trees, rfl, decoded⟩
    rw [decodeItems_of_forall₂ decoded]
    rfl

theorem forall₂_of_decodeValues {schema : Schema} {members : Entries Json} {trees : Entries Tree}
    (decoded : decodeValues schema members = .ok trees) :
    List.Forall₂ (fun member entry => member.1 = entry.1 ∧ decode schema member.2 = .ok entry.2)
      members trees := by
  induction members generalizing trees with
  | nil => cases decoded; exact .nil
  | cons member members ih =>
    rw [decodeValues] at decoded
    cases first : decode schema member.2 with
    | error error => rw [first] at decoded; cases decoded
    | ok tree =>
      rw [first] at decoded
      obtain ⟨others, rest, rfl⟩ := map_eq_ok decoded
      exact .cons ⟨rfl, first⟩ (ih rest)

theorem decodeValues_of_forall₂ {schema : Schema} {members : Entries Json} {trees : Entries Tree}
    (decoded : List.Forall₂ (fun member entry => member.1 = entry.1 ∧
      decode schema member.2 = .ok entry.2) members trees) :
    decodeValues schema members = .ok trees := by
  induction decoded with
  | nil => rfl
  | @cons member entry members trees first rest ih =>
    rw [decodeValues, first.2, ih, first.1]
    rfl

theorem decode_map_iff {schema : Schema} {members : Entries Json} (sorted : members.Sorted)
    {tree : Tree} : decode (.map schema) (.object members) = .ok tree ↔
      ∃ map : SortedMap Tree, tree = .object map ∧ ∀ key, Option.Rel
        (fun json tree => decode schema json = .ok tree) (Entries.find? members key)
        (map.find? key) := by
  rw [decode]
  constructor
  · intro decoded
    obtain ⟨trees, values_decoded, rfl⟩ := map_eq_ok decoded
    have pairs := forall₂_of_decodeValues values_decoded
    have keys : trees.keys = members.keys :=
      (Entries.keys_eq_of_forall₂ (R := fun json tree => decode schema json = .ok tree) pairs).symm
    refine ⟨_, rfl, fun key => ?_⟩
    rw [SortedMap.find?_ofList (keys ▸ sorted.nodup)]
    exact Entries.find?_rel_of_forall₂ (R := fun json tree => decode schema json = .ok tree) pairs key
  · rintro ⟨map, rfl, related⟩
    have pairs := Entries.forall₂_of_find? sorted map.sorted related
    rw [decodeValues_of_forall₂ pairs]
    exact congrArg (fun map => Except.ok (Tree.object map))
      (SortedMap.ext_find? fun key => SortedMap.find?_ofList map.sorted.nodup key)

/-- What a member is decoded to under a field of the schema, if it counts as one. -/
inductive Counted (schema : Schema) : Option Json → Option Tree → Prop where
  | decoded {json : Json} {tree : Tree} (counts : schema.skipsNull json = false)
    (decoded : decode schema json = .ok tree) : Counted schema (some json) (some tree)
  | skipped {member : Option Json} (skips : member.all schema.skipsNull = true) :
    Counted schema member none

/-- What is written for a field: the member that was decoded, or else the default if there is one. -/
inductive FieldRead (presence : Presence) (schema : Schema) : Option Json → Option Tree → Prop where
  | decoded {json : Json} {tree : Tree} (counts : schema.skipsNull json = false)
    (decoded : decode schema json = .ok tree) :
    FieldRead presence schema (some json) (some tree)
  | filled {member : Option Json} (skips : member.all schema.skipsNull = true)
    (defaulted : presence = .defaulted) : FieldRead presence schema member (some schema.initial)
  | omitted {member : Option Json} (skips : member.all schema.skipsNull = true)
    (optional : presence = .optional) : FieldRead presence schema member none

theorem decodeMembers_keys {fields : List Field} {members : Entries Json} {decoded : Entries Tree}
    (ok : decodeMembers fields members = .ok decoded) : decoded.keys.Sublist members.keys := by
  induction members generalizing decoded with
  | nil => cases ok; exact .slnil
  | cons member members ih =>
    obtain ⟨key, value⟩ := member
    rw [decodeMembers] at ok
    split at ok
    · exact (ih ok).cons key
    · split at ok
      · exact (ih ok).cons key
      · split at ok
        · cases ok
        · obtain ⟨others, rest, rfl⟩ := map_eq_ok ok
          exact (ih rest).cons_cons key

theorem counted_of_decodeMembers {fields : List Field} {members : Entries Json}
    (sorted : members.Sorted) {decoded : Entries Tree}
    (ok : decodeMembers fields members = .ok decoded) {key : String} {presence : Presence}
    {schema : Schema} (field : fields.lookup key = some (presence, schema)) :
    Counted schema (Entries.find? members key) (decoded.find? key) := by
  induction members generalizing decoded with
  | nil => cases ok; exact .skipped rfl
  | cons member members ih =>
    obtain ⟨name, value⟩ := member
    -- keys are sorted, so that the first member of a key is the only one
    have absent : Entries.find? members name = none :=
      Entries.find?_eq_none_of_not_mem sorted.not_mem
    have dropped {decoded : Entries Tree} (rest : decodeMembers fields members = .ok decoded) :
        decoded.find? name = none :=
      Entries.find?_eq_none_of_not_mem fun mem =>
        sorted.not_mem ((decodeMembers_keys rest).subset mem)
    rw [decodeMembers] at ok
    by_cases eq : name = key
    · subst eq
      rw [Entries.find?, if_pos rfl]
      simp only [field] at ok
      split at ok
      · rename_i skips
        rw [dropped ok]
        exact .skipped skips
      · rename_i counts
        split at ok
        · cases ok
        · rename_i first
          obtain ⟨others, rest, rfl⟩ := map_eq_ok ok
          rw [Entries.find?, if_pos rfl]
          exact .decoded (by simpa using counts) first
    · rw [Entries.find?, if_neg eq]
      split at ok
      · exact ih sorted.tail ok
      · split at ok
        · exact ih sorted.tail ok
        · split at ok
          · cases ok
          · obtain ⟨others, rest, rfl⟩ := map_eq_ok ok
            rw [Entries.find?, if_neg eq]
            exact ih sorted.tail rest

theorem exists_decodeMembers {fields : List Field} {members : Entries Json}
    (accepted : ∀ member ∈ members, ∀ presence schema, fields.lookup member.1 = some (presence, schema) →
      schema.skipsNull member.2 = false → ∃ tree, decode schema member.2 = .ok tree) :
    ∃ decoded, decodeMembers fields members = .ok decoded := by
  induction members with
  | nil => exact ⟨[], rfl⟩
  | cons member members ih =>
    obtain ⟨key, value⟩ := member
    rw [List.forall_mem_cons] at accepted
    obtain ⟨others, rest⟩ := ih accepted.2
    rw [decodeMembers]
    split
    · exact ⟨others, rest⟩
    · rename_i presence schema field
      split
      · exact ⟨others, rest⟩
      · rename_i counts
        obtain ⟨tree, first⟩ := accepted.1 presence schema field (by simpa using counts)
        rw [first, rest]
        exact ⟨_, rfl⟩

theorem keys_fillFields (fields : List Field) (decoded : Entries Tree) :
    (fillFields fields decoded).keys.Sublist (fields.map Prod.fst) := by
  fun_induction fillFields fields decoded with
  | case1 => exact .slnil
  | case2 name presence schema fields value found ih => exact ih.cons_cons name
  | case3 name schema fields missing ih => exact ih.cons_cons name
  | case4 name schema fields missing ih => exact ih.cons name

def default? (field : Presence × Schema) : Option Tree :=
  match field.1 with
  | .defaulted => some field.2.initial
  | .optional => none

theorem fillFields_cons (name : String) (field : Presence × Schema) (fields : List Field)
    (decoded : Entries Tree) : fillFields ((name, field) :: fields) decoded =
      match (decoded.find? name).or (default? field) with
      | some value => (name, value) :: fillFields fields decoded
      | none => fillFields fields decoded := by
  obtain ⟨presence, schema⟩ := field
  cases found : decoded.find? name <;> cases presence <;>
    simp [fillFields, Entries.lookup_eq_find?, found, default?]

theorem find?_fillFields {fields : List Field} (nodup : (fields.map Prod.fst).Nodup)
    (decoded : Entries Tree) (key : String) :
    (fillFields fields decoded).find? key =
      (fields.lookup key).bind fun field => (decoded.find? key).or (default? field) := by
  induction fields with
  | nil => rfl
  | cons field fields ih =>
    obtain ⟨name, field⟩ := field
    rw [List.map_cons, List.nodup_cons] at nodup
    have rest := ih nodup.2
    rw [Entries.lookup_eq_find?] at rest ⊢
    rw [fillFields_cons, Entries.find?]
    by_cases eq : name = key
    · subst eq
      have absent : (fillFields fields decoded).find? name = none :=
        Entries.find?_eq_none_of_not_mem fun mem =>
          nodup.1 ((keys_fillFields fields decoded).subset mem)
      rw [if_pos rfl, Option.bind_some]
      cases (decoded.find? name).or (default? field) with
      | some value => exact if_pos rfl
      | none => exact absent
    · rw [if_neg eq, ← rest]
      cases (decoded.find? name).or (default? field) with
      | some value => exact if_neg eq
      | none => rfl

theorem FieldRead.of_counted {field : Presence × Schema} {member : Option Json}
    {written : Option Tree} (counted : Counted field.2 member written) :
    FieldRead field.1 field.2 member (written.or (default? field)) := by
  obtain ⟨presence, schema⟩ := field
  cases counted with
  | decoded counts value => exact .decoded counts value
  | skipped skips =>
    cases presence with
    | defaulted => exact .filled skips rfl
    | optional => exact .omitted skips rfl

theorem FieldRead.unique {presence : Presence} {schema : Schema} {member : Option Json}
    {first second : Option Tree} (one : FieldRead presence schema member first)
    (other : FieldRead presence schema member second) : first = second := by
  cases one with
  | decoded counts value =>
    cases other with
    | decoded _ again => exact congrArg some (Except.ok.inj (value.symm.trans again))
    | filled skips | omitted skips => simp [counts] at skips
  | filled skips defaulted =>
    cases other with
    | decoded counts => simp [counts] at skips
    | filled => rfl
    | omitted _ optional => simp [defaulted] at optional
  | omitted skips optional =>
    cases other with
    | decoded counts => simp [counts] at skips
    | filled _ defaulted => simp [optional] at defaulted
    | omitted => rfl

theorem find?_filled {fields : List Field} (nodup : (fields.map Prod.fst).Nodup)
    (decoded : Entries Tree) (key : String) :
    (SortedMap.ofList (fillFields fields decoded)).find? key =
      (fields.lookup key).bind fun field => (decoded.find? key).or (default? field) := by
  rw [SortedMap.find?_ofList ((keys_fillFields fields decoded).nodup nodup),
    find?_fillFields nodup]

/-- A record is decoded field by field, and nothing else is written. -/
theorem decode_record_iff {name : String} {fields : List Field}
    (nodup : (fields.map Prod.fst).Nodup) {members : Entries Json} (sorted : members.Sorted)
    {tree : Tree} : decode (.record name fields) (.object members) = .ok tree ↔
      ∃ map : SortedMap Tree, tree = .object map ∧
        (∀ key, fields.lookup key = none → map.find? key = none) ∧
        ∀ key field, fields.lookup key = some field →
          FieldRead field.1 field.2 (Entries.find? members key) (map.find? key) := by
  have read {decoded : Entries Tree} (ok : decodeMembers fields members = .ok decoded)
      {key : String} {field : Presence × Schema} (known : fields.lookup key = some field) :
      FieldRead field.1 field.2 (Entries.find? members key)
        ((SortedMap.ofList (fillFields fields decoded)).find? key) := by
    rw [find?_filled nodup, known, Option.bind_some]
    exact .of_counted (counted_of_decodeMembers sorted ok known)
  have unknown_none (decoded : Entries Tree) {key : String} (unknown : fields.lookup key = none) :
      (SortedMap.ofList (fillFields fields decoded)).find? key = none := by
    rw [find?_filled nodup, unknown, Option.bind_none]
  rw [decode]
  constructor
  · intro ok
    obtain ⟨decoded, members_ok, rfl⟩ := map_eq_ok ok
    exact ⟨_, rfl, fun key => unknown_none decoded, fun key field => read members_ok⟩
  · rintro ⟨map, rfl, unknown, known⟩
    -- a field that is read has a member that its type decodes, so that all members are decoded, and what
    -- they are decoded to is told by the fields
    have accepted : ∀ member ∈ members, ∀ presence schema,
        fields.lookup member.1 = some (presence, schema) →
        schema.skipsNull member.2 = false → ∃ tree, decode schema member.2 = .ok tree := by
      intro member mem presence schema field counts
      have field_read := known member.1 (presence, schema) field
      rw [sorted.find?_of_mem mem] at field_read
      generalize map.find? member.1 = written at field_read
      cases field_read with
      | decoded _ value => exact ⟨_, value⟩
      | filled skips | omitted skips => simp [counts] at skips
    obtain ⟨decoded, members_ok⟩ := exists_decodeMembers accepted
    rw [members_ok]
    refine congrArg (fun map => Except.ok (Tree.object map)) (SortedMap.ext_find? fun key => ?_)
    cases field : fields.lookup key with
    | none => rw [unknown_none decoded field, unknown key field]
    | some found => exact (read members_ok field).unique (known key found field)

end Kubernetes

end Admission
