import Admission.Object.Edit
import Admission.Proofs.Object.Written

/-! Objects whose written form is decoded to the same form. An edit leaves such an object so. -/

set_option autoImplicit false

namespace Admission

open Json (Tree)

namespace ObjectMeta

def field? (metadata : ObjectMeta) (key : String) : Option Tree :=
  if key = "annotations" then metadata.annotations.map .ofStringMap
  else if key = "labels" then metadata.labels.map .ofStringMap
  else if key = "name" then metadata.name.map .string
  else if key = "namespace" then metadata.objectNamespace.map .string
  else none

theorem exists_members (metadata : ObjectMeta) : ∃ members : SortedMap Tree,
    metadata.toTree = .object members ∧
      ∀ key, members.find? key = (metadata.field? key).or (metadata.others.find? key) := by
  refine ⟨_, rfl, fun key => ?_⟩
  simp only [find?_insertOptional, field?]
  by_cases listed : key ∈ fieldNames
  · simp only [fieldNames, List.mem_cons, List.not_mem_nil, or_false] at listed
    rcases listed with rfl | rfl | rfl | rfl <;> simp
  · simp only [fieldNames, List.mem_cons, List.not_mem_nil, or_false, not_or] at listed
    simp [listed]

def ReadsBack (metadata : ObjectMeta) : Prop :=
  Kubernetes.Reads Kubernetes.objectMeta metadata.toTree.json metadata.toTree.json

theorem ReadsBack.edited {metadata edited : ObjectMeta} (key : String) (reads : metadata.ReadsBack)
    {value : Tree} {schema : Kubernetes.Schema}
    (known : ∀ fields, Kubernetes.objectMeta = .record "ObjectMeta" fields →
      fields.lookup key = some (.optional, schema))
    (plain : schema ≠ .anything) (value_reads : Kubernetes.Reads schema value.json value.json)
    (others : edited.others = metadata.others) (here : edited.field? key = some value)
    (elsewhere : ∀ k, k ≠ key → edited.field? k = metadata.field? k) :
    edited.ReadsBack := by
  obtain ⟨before, before_eq, before_finds⟩ := metadata.exists_members
  obtain ⟨after, after_eq, after_finds⟩ := edited.exists_members
  rw [ReadsBack, before_eq] at reads
  rw [ReadsBack, after_eq]
  refine Kubernetes.reads_self_of_edited (by decide +kernel) reads (known _ rfl) plain value_reads
    fun k => ?_
  rw [after_finds k, before_finds k, others]
  split
  next eq => rw [eq, here, Option.some_or]
  next ne => rw [elsewhere k ne]

end ObjectMeta

namespace Typed

/-- The written form is decoded to the same form. -/
def ReadsBack (object : Typed) : Prop :=
  Kubernetes.Reads object.kind.schema object.toTree.json object.toTree.json

def member? (object : Typed) (key : String) : Option Tree :=
  if key = "metadata" then some object.metadata.toTree
  else if key = "kind" then some (.string object.kind.name)
  else if key = "apiVersion" then some (.string object.kind.apiVersion)
  else object.body.find? key

theorem exists_members (object : Typed) : ∃ members : SortedMap Tree,
    object.toTree = .object members ∧ ∀ key, members.find? key = object.member? key :=
  ⟨_, rfl, fun key => by simp only [SortedMap.find?_insert, member?]⟩

namespace ReadsBack

variable {object edited : Typed} {key : String} {value : Tree}
  {field : Kubernetes.Presence × Kubernetes.Schema}

theorem member (reads : object.ReadsBack) (held : object.member? key = some value)
    (plain : field.2 ≠ .anything)
    (known : ∀ fields, object.kind.schema = .record object.kind.name fields →
      fields.lookup key = some field) :
    Kubernetes.Reads field.2 value.json value.json := by
  obtain ⟨fields, eq, -⟩ := object.kind.exists_fields
  obtain ⟨members, members_eq, finds⟩ := object.exists_members
  have distinct := object.kind.distinct_schema
  rw [ReadsBack, members_eq, eq] at reads
  rw [eq] at distinct
  have read := (Kubernetes.reads_self_iff distinct).1 reads key
  rw [finds, held] at read
  exact read.of_field (known fields eq) plain

theorem withMember (reads : object.ReadsBack) (kind_eq : edited.kind = object.kind)
    (plain : field.2 ≠ .anything)
    (known : ∀ fields, object.kind.schema = .record object.kind.name fields →
      fields.lookup key = some field)
    (value_reads : Kubernetes.Reads field.2 value.json value.json)
    (here : edited.member? key = some value)
    (elsewhere : ∀ k, k ≠ key → edited.member? k = object.member? k) :
    edited.ReadsBack := by
  obtain ⟨fields, eq, -⟩ := object.kind.exists_fields
  obtain ⟨before, before_eq, before_finds⟩ := object.exists_members
  obtain ⟨after, after_eq, after_finds⟩ := edited.exists_members
  have distinct := object.kind.distinct_schema
  rw [ReadsBack, before_eq, eq] at reads
  rw [eq] at distinct
  rw [ReadsBack, after_eq, kind_eq, eq]
  refine Kubernetes.reads_self_of_edited distinct reads (known fields eq) plain value_reads
    fun k => ?_
  rw [after_finds, before_finds]
  split
  next eq => rw [eq, here]
  next ne => exact elsewhere k ne

theorem metadata_known {kind : Kubernetes.Kind} (fields : List Kubernetes.Field)
    (eq : kind.schema = .record kind.name fields) :
    fields.lookup "metadata" = some (.defaulted, Kubernetes.objectMeta) := by
  obtain ⟨others, others_eq, lookup⟩ := kind.exists_fields
  cases eq.symm.trans others_eq
  exact lookup "metadata"

theorem metadata (reads : object.ReadsBack) : object.metadata.ReadsBack := by
  have held : object.member? "metadata" = some object.metadata.toTree := rfl
  exact reads.member held Kubernetes.Schema.noConfusion metadata_known

theorem withMetadata (reads : object.ReadsBack) {metadata : ObjectMeta}
    (metadata_reads : metadata.ReadsBack) : ReadsBack { object with metadata } := by
  exact reads.withMember rfl Kubernetes.Schema.noConfusion metadata_known metadata_reads rfl
    fun k ne => by simp [member?, ne]

end ReadsBack

end Typed

namespace Kubernetes

theorem eq_array_of_items? {tree : Tree} {items : List Tree} (eq : tree.items? = some items) :
    tree = .array items := by
  obtain ⟨json, canonical⟩ := tree
  cases json with
  | array values =>
    cases eq
    refine Json.Tree.ext_json (congrArg Json.array ?_)
    rw [List.map_pmap, List.pmap_eq_map, List.map_id']
  | _ => cases eq

theorem reads_setPolicy (policy : String) {tree : Tree}
    (reads : Reads container tree.json tree.json) :
    Reads container (Typed.setPolicy policy tree).json (Typed.setPolicy policy tree).json := by
  rw [Typed.setPolicy]
  split
  next members held =>
    obtain rfl := Tree.eq_object_of_members? held
    have finds (k : String) : (members.insert "imagePullPolicy" (.string policy)).find? k =
        if k = "imagePullPolicy" then some (.string policy) else members.find? k :=
      members.find?_insert "imagePullPolicy" k _
    exact reads_self_of_edited (by decide +kernel) reads rfl Schema.noConfusion
      (reads_string policy) finds
  next => exact reads

def setPolicies (policy : String) (tree : Tree) : Tree :=
  match tree.items? with
  | some containers => .array (containers.map (Typed.setPolicy policy))
  | none => tree

theorem reads_setPolicies (policy : String) {tree : Tree}
    (reads : Reads (.list container) tree.json tree.json) :
    Reads (.list container) (setPolicies policy tree).json (setPolicies policy tree).json := by
  rw [setPolicies]
  split
  next containers held =>
    obtain rfl := eq_array_of_items? held
    obtain ⟨item, known, pairs⟩ := reads_array_iff.1 reads
    cases known
    refine reads_array_iff.2 ⟨container, rfl, List.forall₂_same.2 ?_⟩
    rw [List.forall₂_same] at pairs
    simp only [List.forall_mem_map] at pairs ⊢
    exact fun tree mem => reads_setPolicy policy (pairs tree mem)
  next => exact reads

theorem reads_modifyContainers (policy : String) {tree : Tree}
    (reads : Reads podSpec tree.json tree.json) :
    Reads podSpec (tree.modifyAt ["containers"] (setPolicies policy)).json
      (tree.modifyAt ["containers"] (setPolicies policy)).json := by
  rw [Tree.modifyAt]
  split
  next members held =>
    obtain rfl := Tree.eq_object_of_members? held
    split
    next value found =>
      have distinct : podSpec.distinct = true := by decide +kernel
      have read := (reads_self_iff distinct).1 reads "containers"
      rw [found] at read
      have list_reads := read.of_field rfl Schema.noConfusion
      have finds (k : String) :
          (members.insert "containers" (setPolicies policy value)).find? k =
            if k = "containers" then some (setPolicies policy value) else members.find? k :=
        members.find?_insert "containers" k _
      rw [Tree.modifyAt]
      exact reads_self_of_edited distinct reads rfl Schema.noConfusion
        (reads_setPolicies policy list_reads) finds
    next => exact reads
  next => exact reads
  next => exact reads

end Kubernetes

namespace Typed.ReadsBack

variable {object final : Typed}

theorem setPullPolicy {policy : String} (reads : object.ReadsBack)
    (set : object.setPullPolicy? policy = some final) :
    final.kind = object.kind ∧ final.ReadsBack := by
  rw [setPullPolicy?] at set
  split at set
  next pod =>
    cases set
    rw [modifyField]
    split
    next spec held =>
      refine ⟨rfl, ?_⟩
      have spec_held : object.member? "spec" = some spec := held
      have known (fields : List Kubernetes.Field)
          (eq : object.kind.schema = .record object.kind.name fields) :
          fields.lookup "spec" = some (.optional, Kubernetes.podSpec) := by
        obtain ⟨others, others_eq, lookup⟩ := object.kind.exists_fields
        cases eq.symm.trans others_eq
        rw [lookup, pod]
        rfl
      have spec_reads := reads.member spec_held Kubernetes.Schema.noConfusion known
      have here := object.body.find?_insert "spec" "spec"
        (spec.modifyAt ["containers"] (Kubernetes.setPolicies policy))
      exact reads.withMember rfl Kubernetes.Schema.noConfusion known
        (Kubernetes.reads_modifyContainers policy spec_reads) here
        fun k ne => by simp [member?, SortedMap.find?_insert, ne]
    next => exact ⟨rfl, reads⟩
  next => cases set

end Typed.ReadsBack

namespace Object

variable {object : Typed}

theorem readsBack_edit (reads : object.ReadsBack) {edit : Edit} {edited : Object}
    (ok : (Object.typed object).edit edit = .ok edited) :
    ∃ final : Typed, edited = .typed final ∧ final.kind = object.kind ∧ final.ReadsBack := by
  cases edit with
  | setName name =>
    cases ok
    exact ⟨_, rfl, rfl, reads.withMetadata <| .edited "name" reads.metadata
      (fun fields eq => by cases eq; rfl) Kubernetes.Schema.noConfusion
      (Kubernetes.reads_string name) rfl rfl fun k ne => by simp [ObjectMeta.field?, ne]⟩
  | setNamespace name =>
    cases ok
    exact ⟨_, rfl, rfl, reads.withMetadata <| .edited "namespace" reads.metadata
      (fun fields eq => by cases eq; rfl) Kubernetes.Schema.noConfusion
      (Kubernetes.reads_string name) rfl rfl fun k ne => by simp [ObjectMeta.field?, ne]⟩
  | labels edit =>
    cases ok
    exact ⟨_, rfl, rfl, reads.withMetadata <| .edited "labels" reads.metadata
      (fun fields eq => by cases eq; rfl) Kubernetes.Schema.noConfusion
      (Kubernetes.reads_ofStringMap (edit.apply ((Object.typed object).labels.getD ∅))) rfl rfl
      fun k ne => by simp [ObjectMeta.field?, ne]⟩
  | annotations edit =>
    cases ok
    exact ⟨_, rfl, rfl, reads.withMetadata <| .edited "annotations" reads.metadata
      (fun fields eq => by cases eq; rfl) Kubernetes.Schema.noConfusion
      (Kubernetes.reads_ofStringMap (edit.apply ((Object.typed object).annotations.getD ∅))) rfl rfl
      fun k ne => by simp [ObjectMeta.field?, ne]⟩
  | update change => cases ok
  | pullPolicy policy =>
    simp only [Object.edit] at ok
    cases set : object.setPullPolicy? policy with
    | none => rw [set] at ok; cases ok
    | some final =>
      rw [set] at ok
      cases ok
      exact ⟨final, rfl, reads.setPullPolicy set⟩

/-- However many edits are made of an object that reads back, the object they lead to does. -/
theorem readsBack_editAll (reads : object.ReadsBack) (edits : List Edit) :
    ∃ final : Typed, ((Object.typed object).editAll edits).1 = .typed final ∧
      final.kind = object.kind ∧ final.ReadsBack := by
  induction edits generalizing object with
  | nil => exact ⟨object, rfl, rfl, reads⟩
  | cons edit edits ih =>
    rw [editAll]
    split
    next edited ok =>
      obtain ⟨next, rfl, kind_eq, next_reads⟩ := readsBack_edit reads ok
      obtain ⟨final, eq, final_kind, final_reads⟩ := ih next_reads
      exact ⟨final, eq, final_kind.trans kind_eq, final_reads⟩
    next => exact ih reads
    next => exact ⟨object, rfl, rfl, reads⟩

end Object

end Admission
