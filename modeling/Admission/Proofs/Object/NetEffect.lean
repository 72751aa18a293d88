import Admission.Proofs.Object.EntryEdit
import Admission.Proofs.Object.Relabelling

/-! Edits of labels and annotations that cancel out leave no trace in a generic object: it is written
as the tree it was made of exactly if its maps are those that were read from there, a missing map
being as good as an empty one. Of an object of a kind the same holds but for maps that were missing,
which are written even if they are empty. -/

set_option autoImplicit false

namespace Admission

open Json (Tree)

namespace Json

variable {first second : Json}

theorem member?_rel_of_same (same : first.same second = true) (key : String) :
    Option.Rel (fun value other => value.same other = true) (first.member? key)
      (second.member? key) := by
  cases second with
  | object members =>
    obtain ⟨others, rfl⟩ := Kubernetes.eq_object_of_same same
    exact Entries.find?_rel_of_forall₂ (R := fun value other : Json => value.same other = true)
      (sameMembers_iff_forall₂.1 same) key
  | _ =>
    cases first with
    | object members => simp [Json.same] at same
    | _ => exact .none

theorem exists_member_of_same (same : first.same second = true) {key : String} {other : Json}
    (held : second.member? key = some other) :
    ∃ value, first.member? key = some value ∧ value.same other = true := by
  have related := member?_rel_of_same same key
  rw [held] at related
  generalize first.member? key = found at related ⊢
  cases related with
  | some same => exact ⟨_, rfl, same⟩

theorem integral_ofStringMap (map : SortedMap String) : (ofStringMap map).Integral := by
  refine .object fun member mem => ?_
  obtain ⟨entry, -, rfl⟩ := List.mem_map.1 mem
  exact .string entry.2

theorem metadata?_of_same (same : first.same second = true) {field : String} {map : SortedMap String}
    (held : second.metadata? field = some (ofStringMap map)) :
    first.metadata? field = some (ofStringMap map) := by
  obtain ⟨metadata, there, held⟩ := Option.bind_eq_some_iff.1 held
  obtain ⟨other, found, metadata_same⟩ := exists_member_of_same same there
  obtain ⟨value, stands, value_same⟩ := exists_member_of_same metadata_same held
  rw [metadata?, found, Option.bind_some, stands, (integral_ofStringMap map).eq_of_same value_same]

end Json

namespace Generic

theorem stringMap?_of_same {data after : Tree} (same : data.json.same after.json = true)
    {field : String} {map : SortedMap String} (read : stringMap? after field = some map) :
    stringMap? data field = some map :=
  stringMap?_eq_some_iff.2 (Json.metadata?_of_same same (stringMap?_eq_some_iff.1 read))

section

variable {data base after : Tree} {field : String} {map : Option (SortedMap String)}

/-- A map is written or left out, and then it is the one that is there. -/
theorem writeMap_cases (root : data.json.isObject = true) (field : String)
    (map : Option (SortedMap String)) : writeMap data field map = data ∨
      ∃ strings, map = some strings ∧ stringMap? (writeMap data field map) field = some strings := by
  cases map with
  | none => exact .inl rfl
  | some strings =>
    simp only [writeMap]
    split
    · exact .inl rfl
    · refine .inr ⟨strings, rfl, ?_⟩
      rw [stringMap?, metadata?_setMetadata_self root, Option.bind_some, Tree.stringMap?_ofStringMap]

theorem writeMap_eq_self_of_getD (unset : map = none → stringMap? data field = none)
    (same : map.getD ∅ = (stringMap? data field).getD ∅) : writeMap data field map = data := by
  cases map with
  | none => rfl
  | some strings =>
    rw [Option.getD_some] at same
    subst same
    cases read : stringMap? data field with
    | none =>
      rw [Option.getD_none, writeMap_of_missing read]
      rfl
    | some strings => rw [Option.getD_some, ← read, writeMap_stringMap?]

/-- If a tree is the same after a map was written into it, or into one that held the same map, then
the map is the one that was there. -/
theorem getD_eq_of_same (root : base.json.isObject = true)
    (unset : map = none → stringMap? base field = none)
    (held : stringMap? base field = stringMap? data field)
    (shown : stringMap? after field = stringMap? (writeMap base field map) field)
    (same : data.json.same after.json = true) : map.getD ∅ = (stringMap? data field).getD ∅ := by
  rcases writeMap_cases root field map with untouched | ⟨strings, rfl, written⟩
  · have found := stringMap?_writeMap_self root unset
    rw [untouched, held] at found
    exact found.symm
  · rw [stringMap?_of_same same (shown.trans written)]

end

structure Unedited (object : Generic) : Prop where
  labels : object.labels.getD ∅ = (stringMap? object.data "labels").getD ∅
  annotations : object.annotations.getD ∅ = (stringMap? object.data "annotations").getD ∅

namespace WellKept

variable {object : Generic}

theorem toTree_eq_data (kept : object.WellKept) (unedited : object.Unedited) :
    object.toTree = object.data := by
  rw [toTree, writeMap_eq_self_of_getD kept.labels unedited.labels,
    writeMap_eq_self_of_getD kept.annotations unedited.annotations]

theorem unedited_of_same (kept : object.WellKept)
    (same : object.data.json.same object.toTree.json = true) : object.Unedited where
  labels := by
    refine getD_eq_of_same kept.root kept.labels rfl ?_ same
    -- the annotations are written last, which the labels do not show
    rw [toTree, stringMap?_writeMap _ object.annotations (by decide)]
  annotations := by
    have held : stringMap? (writeMap object.data "labels" object.labels) "annotations" =
        stringMap? object.data "annotations" :=
      stringMap?_writeMap object.data object.labels (by decide)
    refine getD_eq_of_same (isObject_writeMap kept.root "labels" object.labels) ?_ held rfl same
    intro unset
    rw [held]
    exact kept.annotations unset

theorem same_toTree_iff (kept : object.WellKept) :
    object.data.json.same object.toTree.json = true ↔ object.Unedited := by
  constructor
  · exact kept.unedited_of_same
  · intro unedited
    rw [kept.toTree_eq_data unedited]
    exact Json.same_refl _

theorem toTree_eq_data_iff (kept : object.WellKept) :
    object.toTree = object.data ↔ object.Unedited := by
  refine ⟨fun eq => kept.unedited_of_same ?_, kept.toTree_eq_data⟩
  rw [eq]
  exact Json.same_refl _

end WellKept

theorem wellKept_of_ofTree? {data : Tree} {object : Generic} (made : ofTree? data = some object) :
    object = ofTree data ∧ object.WellKept := by
  rw [ofTree?] at made
  split at made
  next root =>
    cases made
    exact ⟨rfl, .ofTree root⟩
  next => cases made

end Generic

/-- The labels or the annotations of an object are asked for, and then edited or left as they are. -/
inductive MapUse where
  | labels (edit : Option MapEdit)
  | annotations (edit : Option MapEdit)

def MapUse.edited (edit : Option MapEdit) (map : SortedMap String) : SortedMap String :=
  edit.elim map fun edit => edit.apply map

namespace Object

def use (object : Object) : MapUse → Object
  | .labels edit => object.editLabels (MapUse.edited edit)
  | .annotations edit => object.editAnnotations (MapUse.edited edit)

def useAll (object : Object) (uses : List MapUse) : Object :=
  uses.foldl use object

/-- Two objects tell the same labels and annotations, if none and an empty map of them are not told
apart. -/
def SameMaps (object other : Object) : Prop :=
  object.labels.getD ∅ = other.labels.getD ∅ ∧ object.annotations.getD ∅ = other.annotations.getD ∅

end Object

namespace Generic

theorem exists_useAll {start : Generic} (kept : start.WellKept) (uses : List MapUse) :
    ∃ left : Generic, (Object.generic start).useAll uses = .generic left ∧
      left.data = start.data ∧ left.WellKept := by
  induction uses generalizing start with
  | nil => exact ⟨start, rfl, rfl, kept⟩
  | cons use uses ih =>
    cases use with
    | labels edit =>
      let next : Generic := { start with labels := some (MapUse.edited edit (start.labels.getD ∅)) }
      have next_kept : next.WellKept := ⟨⟨nofun, kept.annotations⟩, kept.root⟩
      exact ih next_kept
    | annotations edit =>
      let next : Generic :=
        { start with annotations := some (MapUse.edited edit (start.annotations.getD ∅)) }
      have next_kept : next.WellKept := ⟨⟨kept.labels, nofun⟩, kept.root⟩
      exact ih next_kept

theorem same_useAll_iff {data : Tree} {start : Generic} (made : ofTree? data = some start)
    (uses : List MapUse) :
    (data.json.same ((Object.generic start).useAll uses).toJson = true ↔
      ((Object.generic start).useAll uses).SameMaps (.generic start)) ∧
    (((Object.generic start).useAll uses).toTree = data ↔
      ((Object.generic start).useAll uses).SameMaps (.generic start)) := by
  obtain ⟨rfl, kept⟩ := wellKept_of_ofTree? made
  obtain ⟨left, left_eq, data_eq, left_kept⟩ := exists_useAll kept uses
  have unedited : left.Unedited ↔ (Object.generic left).SameMaps (.generic (ofTree data)) := by
    constructor
    · rintro ⟨labels, annotations⟩
      rw [data_eq] at labels annotations
      exact ⟨labels, annotations⟩
    · rintro ⟨labels, annotations⟩
      refine ⟨?_, ?_⟩
      · rw [data_eq]; exact labels
      · rw [data_eq]; exact annotations
  have same := left_kept.same_toTree_iff
  have equal := left_kept.toTree_eq_data_iff
  rw [data_eq] at same equal
  rw [left_eq]
  exact ⟨same.trans unedited, equal.trans unedited⟩

end Generic

namespace SortedMap

variable {α : Type} {map other : SortedMap α}

theorem overlay_eq_self_iff : map.overlay other = map ↔ map.Carries other := by
  refine ⟨fun eq => ?_, Carries.overlay_eq⟩
  have carries := carries_overlay map other
  rwa [eq] at carries

theorem eq_empty_of_carries (carries : (∅ : SortedMap α).Carries map) : map = ∅ := by
  refine ext_find? fun key => ?_
  cases found : map.find? key with
  | none => rfl
  | some value => cases carries key value found

end SortedMap

theorem Creator.exists_tree {creator : Creator} {raw : Bytes} {object : Object}
    (created : (creator.newObject raw).result = .ok object) :
    ∃ tree, (creator.ofTree tree).result = .ok object := by
  cases held : decodeRaw raw with
  | error error =>
    rw [newObject_of_error _ held] at created
    cases created
  | ok tree =>
    rw [newObject_of_holds _ (decodeRaw_eq_ok_iff.1 held)] at created
    exact ⟨tree, created⟩

theorem Typed.metadata?_labels {kind : Kubernetes.Kind} {tree : Tree} {object : Typed}
    (decoded : decode kind tree.json = .ok object) :
    Generic.metadata? object.toTree "labels" = object.metadata.labels.map .ofStringMap := by
  obtain ⟨members, members_eq, finds⟩ := object.exists_members
  obtain ⟨metadata, metadata_eq, held⟩ := object.metadata.exists_members
  -- no other field of decoded metadata has the name
  have others : object.metadata.others.find? "labels" = none := by
    obtain ⟨read, read_eq, -⟩ := exists_metadata decoded
    rw [read_eq, ObjectMeta.ofMembers, SortedMap.find?_filterKeys]
    rfl
  have found : members.find? "metadata" = some (.object metadata) := by
    rw [finds, ← metadata_eq]
    rfl
  rw [Generic.metadata?, members_eq, Tree.member?, Tree.members?_object, Option.bind_some, found,
    Option.bind_some, Tree.member?, Tree.members?_object, Option.bind_some, held, others,
    Option.or_none]
  rfl

namespace Labels

variable {registry : Registry} {labels : SortedMap String} {tree : Tree} {object : Object}

/-- An object of a kind that has no labels, not so much as an empty map of them. -/
def Unlabelled (object : Object) : Prop :=
  ∃ typed, object = .typed typed ∧ typed.metadata.labels = none

theorem same_label_typed {typed : Typed} {kind : Kubernetes.Kind}
    (decoded : Typed.decode kind tree.json = .ok typed) :
    (Object.typed typed).toJson.same (label labels (.typed typed)).toJson = true ↔
      (typed.metadata.labels.getD ∅).Carries labels ∧
        ¬ (labels = ∅ ∧ typed.metadata.labels = none) := by
  let written := (typed.metadata.labels.getD ∅).overlay labels
  have after : (label labels (.typed typed)).toTree =
      Generic.setMetadata typed.toTree "labels" (.ofStringMap written) := typed.toTree_setLabels _
  constructor
  · intro same
    -- labels that were written stay readable in whatever is the same, so the object had them before
    have read : Generic.stringMap? (label labels (.typed typed)).toTree "labels" = some written := by
      rw [after, Generic.stringMap?, Generic.metadata?_setMetadata_self rfl, Option.bind_some,
        Tree.stringMap?_ofStringMap]
    have before := Generic.stringMap?_of_same same read
    rw [Generic.stringMap?, Object.toTree, Typed.metadata?_labels decoded] at before
    cases held : typed.metadata.labels with
    | none => simp [held] at before
    | some current =>
      rw [held, Option.map_some, Option.bind_some, Tree.stringMap?_ofStringMap,
        Option.some.injEq] at before
      refine ⟨SortedMap.overlay_eq_self_iff.1 ?_, by simp⟩
      simpa [written, held] using before.symm
  · rintro ⟨carries, labelled⟩
    cases held : typed.metadata.labels with
    | none =>
      rw [held] at carries
      exact absurd ⟨SortedMap.eq_empty_of_carries carries, held⟩ labelled
    | some current =>
      rw [held] at carries
      have settled : Settled labels (.typed typed) := .of_labels held carries
      rw [settled.same]
      exact Json.same_refl _

theorem same_label_generic (root : tree.json.isObject = true) :
    (Object.generic (.ofTree tree)).toJson.same (label labels (.generic (.ofTree tree))).toJson =
      true ↔ ((Generic.stringMap? tree "labels").getD ∅).Carries labels := by
  let left : Generic :=
    { Generic.ofTree tree with
      labels := some (((Generic.stringMap? tree "labels").getD ∅).overlay labels) }
  have kept : left.WellKept := ⟨⟨nofun, id⟩, root⟩
  have before : (Object.generic (.ofTree tree)).toJson = tree.json :=
    congrArg Tree.json (Generic.toTree_ofTree tree)
  rw [before, ← SortedMap.overlay_eq_self_iff]
  refine Iff.trans kept.same_toTree_iff ⟨fun unedited => unedited.labels, fun eq => ⟨eq, rfl⟩⟩

/-- Labels change what is written of an object if one of them is not there. If all of them are, an
object of a kind is still written with an empty map that it did not have. -/
theorem same_label_iff (created : ((Creator.dynamic registry).ofTree tree).result = .ok object) :
    object.toJson.same (label labels object).toJson = true ↔
      (object.labels.getD ∅).Carries labels ∧ ¬ (labels = ∅ ∧ Unlabelled object) := by
  obtain ⟨kind, typed, decoded, rfl⟩ | ⟨root, rfl⟩ := Creator.made_of_ofTree created
  · refine (same_label_typed decoded).trans (and_congr_right fun carries => not_congr ?_)
    refine and_congr_right fun empty => ⟨fun unset => ⟨typed, rfl, unset⟩, ?_⟩
    rintro ⟨other, eq, unset⟩
    cases eq
    exact unset
  · refine (same_label_generic root).trans ⟨fun carries => ⟨carries, ?_⟩, And.left⟩
    rintro ⟨-, typed, eq, -⟩
    cases eq

end Labels

end Admission
