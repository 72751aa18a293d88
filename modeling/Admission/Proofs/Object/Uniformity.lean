import Admission.Proofs.Object.Written

/-! An object of a known kind and a generic one that were made of the same value tell the same of
their metadata, and go on to do so whatever edits are made of both. -/

set_option autoImplicit false

namespace Admission

open Json (Tree)

namespace Kubernetes

theorem json_of_decode_string {json : Json} {tree : Tree} (decoded : decode .string json = .ok tree) :
    tree.json = json := by
  cases json with
  | string text => cases decoded; rfl
  | _ => cases decoded

theorem json_of_decode_strings {json : Json} (canonical : json.Canonical) {tree : Tree}
    (decoded : decode (.map .string) json = .ok tree) : tree.json = json := by
  cases json with
  | object members =>
    obtain ⟨map, rfl, related⟩ := (decode_map_iff canonical.members_sorted).1 decoded
    have sorted : (map.entries.mapValues Tree.json).Sorted := (map.mapValues Tree.json).sorted
    have pairs := Entries.forall₂_of_find? (R := Eq) sorted canonical.members_sorted fun key => by
      have read := related key
      rw [show Entries.find? (map.entries.mapValues Tree.json) key = (map.find? key).map Tree.json from
        Entries.find?_mapValues Tree.json map.entries key]
      generalize Entries.find? members key = member, map.find? key = written at read ⊢
      cases read with
      | none => exact .none
      | some decoded => exact .some (json_of_decode_string decoded)
    exact congrArg Json.object
      (List.forall₂_eq_eq_eq ▸ pairs.imp fun entry other eq => Prod.ext eq.1 eq.2)
  | _ => cases decoded

/-- A schema under which nothing that is decoded changes. -/
def Verbatim (schema : Schema) : Prop :=
  ∀ (json : Json) (tree : Tree), json.Canonical → decode schema json = .ok tree → tree.json = json

theorem verbatim_string : Verbatim .string :=
  fun _ _ _ => json_of_decode_string

theorem verbatim_strings : Verbatim (.map .string) :=
  fun _ _ canonical => json_of_decode_strings canonical

/-- A reading that takes nothing from null takes the same from a field and from what is written for
it. -/
theorem FieldRead.bind_eq {schema : Schema} (verbatim : Verbatim schema) {member written : Option Tree}
    (read : FieldRead .optional schema (member.map Tree.json) written) {α : Type}
    (get : Tree → Option α) (null : get .null = none) : written.bind get = member.bind get := by
  cases member with
  | none =>
    cases read with
    | filled _ defaulted => cases defaulted
    | omitted => rfl
  | some tree =>
    cases read with
    | decoded _ decoded => rw [Tree.ext_json (verbatim tree.json _ tree.canonical decoded)]
    | filled _ defaulted => cases defaulted
    | omitted skips =>
      obtain rfl : tree = .null := Tree.ext_json (eq_null_of_skipsNull skips)
      exact null.symm

end Kubernetes

def ObjectMeta.Known (key : String) (schema : Kubernetes.Schema) : Prop :=
  ∀ fields, Kubernetes.objectMeta = .record "ObjectMeta" fields →
    fields.lookup key = some (.optional, schema)

/-- The members of metadata are what the fields of the value are read as. Metadata that are missing or
null have none. -/
theorem ObjectMeta.fieldRead_of_fieldRead {metadata written : Option Tree}
    (read : Kubernetes.FieldRead .defaulted Kubernetes.objectMeta (metadata.map Tree.json) written)
    {key : String} {schema : Kubernetes.Schema} (known : Known key schema) :
    Kubernetes.FieldRead .optional schema ((metadata.bind (·.member? key)).map Tree.json)
      (((written.bind Tree.members?).getD ∅).find? key) := by
  have initial : Kubernetes.objectMeta.initial = .object ∅ := rfl
  have absent : Kubernetes.FieldRead .optional schema none none := .omitted rfl rfl
  cases metadata with
  | none =>
    cases read with
    | filled => rw [initial, Option.bind_some, Tree.members?_object]; exact absent
    | omitted _ optional => cases optional
  | some metadata =>
    cases read with
    | decoded _ decoded =>
      obtain ⟨members, metadata_eq⟩ := Kubernetes.decode_record_of_ok decoded
      have canonical := metadata.canonical
      rw [metadata_eq] at decoded canonical
      obtain ⟨inner, rfl, reads⟩ :=
        (Kubernetes.decode_object_iff (by decide +kernel) canonical.members_sorted).1 decoded
      rw [Option.bind_some, Option.bind_some, Tree.members?_object, Option.getD_some,
        Tree.json_member?, metadata_eq]
      exact (reads key).fieldRead (known _ rfl)
    | filled skips =>
      obtain rfl : metadata = .null := Tree.ext_json (Kubernetes.eq_null_of_skipsNull skips)
      rw [initial, Option.bind_some, Option.bind_some, Tree.members?_object]
      exact absent
    | omitted _ optional => cases optional

theorem Typed.exists_metadata {kind : Kubernetes.Kind} {tree : Tree} {object : Typed}
    (decoded : decode kind tree.json = .ok object) :
    ∃ members : SortedMap Tree, object.metadata = .ofMembers members ∧
      ∀ key schema, ObjectMeta.Known key schema →
        Kubernetes.FieldRead .optional schema ((Generic.metadata? tree key).map Tree.json)
          (members.find? key) := by
  obtain ⟨written, tree_decoded, rfl⟩ := Json.map_eq_ok decoded
  refine ⟨_, rfl, fun key schema known => ?_⟩
  have distinct := kind.distinct_schema
  have canonical := tree.canonical
  obtain ⟨fields, kind_eq, lookup⟩ := kind.exists_fields
  rw [kind_eq] at tree_decoded distinct
  obtain ⟨members, json_eq⟩ := Kubernetes.decode_record_of_ok tree_decoded
  rw [json_eq] at tree_decoded canonical
  obtain ⟨map, rfl, reads⟩ :=
    (Kubernetes.decode_object_iff distinct canonical.members_sorted).1 tree_decoded
  have member : Entries.find? members "metadata" = (tree.member? "metadata").map Tree.json := by
    rw [Tree.json_member?, json_eq]
    rfl
  have read := (reads "metadata").fieldRead (by rw [lookup]; rfl)
  rw [member] at read
  rw [Tree.members?_object, Option.getD_some]
  exact ObjectMeta.fieldRead_of_fieldRead read known

structure Told where
  name : Option String
  objectNamespace : Option String
  labels : Option (SortedMap String)
  annotations : Option (SortedMap String)

def Object.told (object : Object) : Told :=
  ⟨object.name, object.objectNamespace, object.labels, object.annotations⟩

theorem Typed.told_eq {kind : Kubernetes.Kind} {tree : Tree} {object : Typed}
    (decoded : decode kind tree.json = .ok object) :
    (Object.typed object).told = (Object.generic (.ofTree tree)).told := by
  obtain ⟨members, metadata_eq, reads⟩ := exists_metadata decoded
  have text (key : String) (known : ObjectMeta.Known key .string) :
      (members.find? key).bind Tree.string? = (Generic.metadata? tree key).bind Tree.string? :=
    (reads key .string known).bind_eq Kubernetes.verbatim_string _ rfl
  have strings (key : String) (known : ObjectMeta.Known key (.map .string)) :
      (members.find? key).bind Tree.stringMap? = (Generic.metadata? tree key).bind Tree.stringMap? :=
    (reads key (.map .string) known).bind_eq Kubernetes.verbatim_strings _ rfl
  have name := text "name" fun fields eq => by cases eq; rfl
  have objectNamespace := text "namespace" fun fields eq => by cases eq; rfl
  have labels := strings "labels" fun fields eq => by cases eq; rfl
  have annotations := strings "annotations" fun fields eq => by cases eq; rfl
  simp only [Object.told, Object.name, Object.objectNamespace, Object.labels, Object.annotations,
    metadata_eq, ObjectMeta.ofMembers, name, objectNamespace, labels, annotations]
  rfl

/-- Edits that an object takes whether or not its kind is known. -/
inductive Edit.Common : Edit → Prop where
  | setName (name : String) : Common (.setName name)
  | setNamespace (name : String) : Common (.setNamespace name)
  | labels (edit : MapEdit) : Common (.labels edit)
  | annotations (edit : MapEdit) : Common (.annotations edit)

def Told.edit (told : Told) (edit : Edit) : Told :=
  match edit with
  | .setName name => { told with name := some name }
  | .setNamespace name => { told with objectNamespace := some name }
  | .labels edit => { told with labels := some (edit.apply (told.labels.getD ∅)) }
  | .annotations edit => { told with annotations := some (edit.apply (told.annotations.getD ∅)) }
  | .update _ | .pullPolicy _ => told

theorem Generic.text?_set {object : Generic} (root : object.data.json.isObject = true)
    (field other text : String) :
    text? { object with data := setMetadata object.data field (.string text) } other =
      if other = field then some text else object.text? other := by
  rw [text?, text?]
  split
  next eq => rw [eq, metadata?_setMetadata_self root]; rfl
  next ne => rw [metadata?_setMetadata _ _ ne]

namespace Object

/-- An object in which metadata have their place: the tree of a generic one is an object. -/
def Rooted : Object → Prop
  | .typed _ => True
  | .generic object => object.data.json.isObject = true

theorem told_edit {object : Object} (rooted : object.Rooted) {edit : Edit} (common : edit.Common) :
    ∃ next, object.edit edit = .ok next ∧ next.Rooted ∧ next.told = object.told.edit edit := by
  cases object with
  | typed object => cases common <;> exact ⟨_, rfl, trivial, rfl⟩
  | generic object =>
    have set (field : String) (text : String) :
        (Generic.setMetadata object.data field (.string text)).json.isObject = true :=
      Generic.isObject_setMetadata rooted field (.string text)
    have told (field text : String) : (Object.generic
        { object with data := Generic.setMetadata object.data field (.string text) }).told =
        ⟨if "name" = field then some text else object.name,
          if "namespace" = field then some text else object.objectNamespace,
          object.labels, object.annotations⟩ := by
      simp only [Object.told, Object.name, Object.objectNamespace, Generic.name,
        Generic.objectNamespace, Generic.text?_set rooted]
      rfl
    cases common with
    | setName name => exact ⟨_, rfl, set "name" name, told "name" name⟩
    | setNamespace name => exact ⟨_, rfl, set "namespace" name, told "namespace" name⟩
    | labels edit => exact ⟨_, rfl, rooted, rfl⟩
    | annotations edit => exact ⟨_, rfl, rooted, rfl⟩

theorem previous?_eq {first second : Object} (same : first.told = second.told) (edit : Edit) :
    edit.previous? first = edit.previous? second := by
  have labels : first.labels = second.labels := congrArg Told.labels same
  have annotations : first.annotations = second.annotations := congrArg Told.annotations same
  cases edit with
  | labels edit => rw [Edit.previous?, Edit.previous?, labels]
  | annotations edit => rw [Edit.previous?, Edit.previous?, annotations]
  | _ => rfl

inductive EditedAlike (first second : Object) : Object → Object → Prop where
  | start : EditedAlike first second first second
  | edit {one other next beside : Object} {edit : Edit}
    (before : EditedAlike first second one other) (common : edit.Common)
    (made : one.edit edit = .ok next) (also : other.edit edit = .ok beside) :
    EditedAlike first second next beside

theorem EditedAlike.told_eq {first second one other : Object}
    (edited : EditedAlike first second one other) (rooted : first.Rooted) (beside : second.Rooted)
    (same : first.told = second.told) :
    one.Rooted ∧ other.Rooted ∧ one.told = other.told := by
  induction edited with
  | start => exact ⟨rooted, beside, same⟩
  | edit before common made also ih =>
    obtain ⟨one_rooted, other_rooted, alike⟩ := ih
    obtain ⟨next, next_made, next_rooted, next_told⟩ := told_edit one_rooted common
    obtain ⟨twin, twin_made, twin_rooted, twin_told⟩ := told_edit other_rooted common
    cases made.symm.trans next_made
    cases also.symm.trans twin_made
    exact ⟨next_rooted, twin_rooted, by rw [next_told, twin_told, alike]⟩

/-- A value that the decoder of a kind accepts can be kept as a generic object as well. Both objects
tell the same of their metadata, whatever edits are made of both, and every edit replaces or takes
away the same in both. -/
theorem told_alike {kind : Kubernetes.Kind} {tree : Tree} {object : Typed}
    (decoded : Typed.decode kind tree.json = .ok object) :
    ∃ generic, Generic.ofTree? tree = some generic ∧
      ∀ one other, EditedAlike (.typed object) (.generic generic) one other →
        one.told = other.told ∧
        ∀ edit, Edit.Common edit → edit.previous? one = edit.previous? other ∧
          ∃ next beside, one.edit edit = .ok next ∧ other.edit edit = .ok beside ∧
            next.told = beside.told := by
  have root : tree.json.isObject = true := by
    obtain ⟨written, tree_decoded, -⟩ := Json.map_eq_ok decoded
    obtain ⟨members, json_eq⟩ := Kubernetes.decode_record_of_ok tree_decoded
    rw [json_eq]
    rfl
  refine ⟨.ofTree tree, if_pos root, fun one other edited => ?_⟩
  obtain ⟨one_rooted, other_rooted, same⟩ := edited.told_eq trivial root (Typed.told_eq decoded)
  refine ⟨same, fun edit common => ⟨previous?_eq same edit, ?_⟩⟩
  obtain ⟨next, made, -, next_told⟩ := told_edit one_rooted common
  obtain ⟨beside, also, -, beside_told⟩ := told_edit other_rooted common
  exact ⟨next, beside, made, also, by rw [next_told, beside_told, same]⟩

def unlabelledPod : Tree :=
  .ofJson (.object [("apiVersion", .string "v1"), ("kind", .string "Pod"),
    ("metadata", .object [("annotations", .object []), ("labels", .null)])])

/-- The labels come into being with the first edit, in the pod as in the generic object, and the
second one removes what the first one set. -/
theorem told_alike_unlabelledPod : ∃ (pod : Typed) (generic : Generic) (one other : Object),
    Typed.decode .pod unlabelledPod.json = .ok pod ∧ Generic.ofTree? unlabelledPod = some generic ∧
    (Object.typed pod).labels = none ∧ (Object.generic generic).labels = none ∧
    (Object.typed pod).annotations = some ∅ ∧ (Object.generic generic).annotations = some ∅ ∧
    (Object.typed pod).edit (.labels (.insert "app" "web")) = .ok one ∧
    (Object.generic generic).edit (.labels (.insert "app" "web")) = .ok other ∧
    one.labels = some ((∅ : SortedMap String).insert "app" "web") ∧ one.told = other.told ∧
    Edit.previous? (.labels (.erase "app")) one = some "web" ∧
    Edit.previous? (.labels (.erase "app")) other = some "web" := by
  obtain ⟨pod, decoded, labels, annotations⟩ : ∃ pod,
      Typed.decode .pod unlabelledPod.json = .ok pod ∧ pod.metadata.labels = none ∧
        pod.metadata.annotations = some ∅ := ⟨_, rfl, rfl, rfl⟩
  obtain ⟨generic, created, alike⟩ := told_alike decoded
  obtain ⟨same, edits⟩ := alike _ _ .start
  obtain ⟨-, one, other, made, also, -⟩ := edits _ (.labels (.insert "app" "web"))
  obtain ⟨edited_same, more⟩ := alike one other (.edit .start (.labels _) made also)
  obtain ⟨previous, -⟩ := more (.labels (.erase "app")) (.labels _)
  have one_labels : one.labels = some ((∅ : SortedMap String).insert "app" "web") := by
    cases made
    simp [Object.editLabels, Object.setLabels, Object.labels, labels, MapEdit.apply]
  have taken : Edit.previous? (.labels (.erase "app")) one = some "web" := by
    rw [Edit.previous?, one_labels]
    rfl
  exact ⟨pod, generic, one, other, decoded, created, labels,
    (congrArg Told.labels same).symm.trans labels, annotations,
    (congrArg Told.annotations same).symm.trans annotations, made, also, one_labels, edited_same,
    taken, previous.symm.trans taken⟩

end Object

end Admission
