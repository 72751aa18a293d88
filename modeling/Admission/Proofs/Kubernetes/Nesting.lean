import Admission.Proofs.Json.Reading
import Admission.Proofs.Kubernetes.Reading

/-! What a value is decoded to nests no deeper than the value does or its schema has types within
types. -/

set_option autoImplicit false

namespace Admission.Kubernetes

open Json (Tree)

mutual

/-- How many types of lists, maps and records stand within each other. -/
def Schema.height : Schema → Nat
  | .list item => item.height + 1
  | .map value => value.height + 1
  | .record _ fields => heightFields fields + 1
  | _ => 0

def heightFields : List Field → Nat
  | [] => 0
  | (_, _, schema) :: fields => max schema.height (heightFields fields)

end

theorem Kind.height_schema (kind : Kind) : kind.schema.height ≤ Json.nestingLimit := by
  have each : all.all (fun kind => decide (kind.schema.height ≤ Json.nestingLimit)) = true := by
    decide +kernel
  exact of_decide_eq_true (List.all_eq_true.1 each kind kind.mem_all)

theorem height_of_lookup {fields : List Field} {room : Nat} (fits : heightFields fields ≤ room)
    {key : String} {field : Presence × Schema} (known : fields.lookup key = some field) :
    field.2.height ≤ room := by
  induction fields with
  | nil => cases known
  | cons first fields ih =>
    obtain ⟨name, presence, schema⟩ := first
    rw [heightFields, Nat.max_le] at fits
    rw [List.lookup_cons] at known
    split at known
    · cases known
      exact fits.1
    · exact ih fits.2 known

theorem height_of_item? {schema item : Schema} {room : Nat} (fits : schema.height ≤ room + 1)
    (known : schema.item? = some item) : item.height ≤ room := by
  cases schema with
  | list item => cases known; exact Nat.le_of_succ_le_succ fits
  | anything => cases known; exact Nat.zero_le room
  | _ => cases known

theorem height_of_value? {schema value : Schema} {room : Nat} (fits : schema.height ≤ room + 1)
    (known : schema.value? = some value) : value.height ≤ room := by
  cases schema with
  | map value => cases known; exact Nat.le_of_succ_le_succ fits
  | anything => cases known; exact Nat.zero_le room
  | _ => cases known

mutual

theorem depth_initial (schema : Schema) : schema.initial.json.depth ≤ schema.height := by
  cases schema with
  | record name fields =>
    refine Json.depth_object_le_iff.2 fun member mem => ?_
    obtain ⟨entry, inEntries, rfl⟩ := List.mem_map.1 mem
    exact depth_initialFields fields entry (Json.mem_of_mem_sort inEntries)
  | list item => exact Nat.succ_le_succ (Nat.zero_le item.height)
  | map value => exact Nat.succ_le_succ (Nat.zero_le value.height)
  | _ => exact Nat.le_refl 0

theorem depth_initialFields (fields : List Field) : ∀ entry ∈ initialFields fields,
    entry.2.json.depth ≤ heightFields fields := by
  match fields with
  | [] => exact fun _ => nofun
  | (_, .optional, schema) :: fields =>
    exact fun entry mem =>
      Nat.le_trans (depth_initialFields fields entry mem) (Nat.le_max_right _ _)
  | (name, .defaulted, schema) :: fields =>
    rw [initialFields, List.forall_mem_cons]
    exact ⟨Nat.le_trans (depth_initial schema) (Nat.le_max_left _ _), fun entry mem =>
      Nat.le_trans (depth_initialFields fields entry mem) (Nat.le_max_right _ _)⟩

end

theorem Leaf.depth_eq {json : Json} (leaf : Leaf json) : json.depth = 0 := by
  cases json with
  | array items => exact absurd rfl (leaf.1 items)
  | object members => exact absurd rfl (leaf.2 members)
  | _ => rfl

theorem depth_of_decodeScalar {schema : Schema} {json : Json} (whole : Leaf json) {tree : Tree}
    (decoded : decodeScalar schema json = .ok tree) : tree.json.depth = 0 := by
  rcases decodeScalar_leaf decoded with rfl | leaf
  · cases json with
    | array items => exact absurd rfl (whole.1 items)
    | object members => exact absurd rfl (whole.2 members)
    | _ => cases decoded; rfl
  · exact leaf.depth_eq

theorem depth_of_decode {schema : Schema} (distinct : schema.distinct = true) {json : Json}
    (canonical : json.Canonical) {tree : Tree} (decoded : decode schema json = .ok tree) {room : Nat}
    (fits : json.depth ≤ room) (height : schema.height ≤ room) : tree.json.depth ≤ room := by
  induction json generalizing schema tree room with
  | null | bool value | number value | string value =>
    have scalar := depth_of_decodeScalar ⟨fun _ => Json.noConfusion, fun _ => Json.noConfusion⟩ decoded
    exact scalar ▸ Nat.zero_le room
  | array items ih =>
    obtain ⟨item, trees, known, rfl, pairs⟩ := decode_array_iff.1 decoded
    obtain ⟨room, rfl⟩ := Nat.exists_eq_succ_of_ne_zero (Nat.ne_zero_of_lt fits)
    refine Json.depth_array_le_iff.2 fun written mem => ?_
    obtain ⟨tree, inTrees, rfl⟩ := List.mem_map.1 mem
    obtain ⟨json, inItems, decoded⟩ := Json.exists_of_forall₂ pairs tree inTrees
    exact ih json inItems (distinct_of_item? distinct known) (canonical.of_mem_items json inItems)
      decoded (Json.depth_array_le_iff.1 fits json inItems) (height_of_item? height known)
  | object members ih =>
    obtain ⟨map, rfl, reads⟩ := (decode_object_iff distinct canonical.members_sorted).1 decoded
    obtain ⟨room, rfl⟩ := Nat.exists_eq_succ_of_ne_zero (Nat.ne_zero_of_lt fits)
    have member (key : String) (json : Json) (found : Entries.find? members key = some json)
        {schema : Schema} (distinct : schema.distinct = true) (height : schema.height ≤ room)
        {tree : Tree} (decoded : decode schema json = .ok tree) : tree.json.depth ≤ room :=
      have mem := Entries.mem_of_find? found
      ih (key, json) mem distinct (canonical.of_mem_members _ mem) decoded
        (Json.depth_object_le_iff.1 fits _ mem) height
    refine Json.depth_object_le_iff.2 fun written mem => ?_
    obtain ⟨⟨key, tree⟩, inMap, rfl⟩ := List.mem_map.1 mem
    have read := reads key
    rw [show map.find? key = some tree from map.sorted.find?_of_mem inMap] at read
    generalize found : Entries.find? members key = held at read
    -- a written member nests as deep as the received one allows, or as its default does
    cases read with
    | value known read =>
      cases read with
      | some decoded =>
        exact member key _ found (distinct_of_value? distinct known) (height_of_value? height known)
          decoded
    | field known read =>
      rw [Schema.distinct, Bool.and_eq_true] at distinct
      have fieldFits := height_of_lookup (Nat.le_of_succ_le_succ height) known
      cases read with
      | decoded _ decoded =>
        exact member key _ found (distinct_of_lookup distinct.2 known) fieldFits decoded
      | filled => exact Nat.le_trans (depth_initial _) fieldFits

end Admission.Kubernetes
