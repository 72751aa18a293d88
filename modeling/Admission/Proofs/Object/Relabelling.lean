import Admission.Labels
import Admission.Proofs.Kubernetes.Nesting
import Admission.Proofs.Object.ReadingBack
import Admission.Proofs.Object.Rereading
import Admission.Proofs.Object.Uniformity

/-! Labels that are set on an object are there when it is read back, whether the object that is read
is of a type or generic, and setting them once more changes nothing. -/

set_option autoImplicit false

namespace Admission

open Json (Tree)

namespace SortedMap

variable {α : Type}

def Carries (map other : SortedMap α) : Prop :=
  ∀ key value, other.find? key = some value → map.find? key = some value

theorem carries_empty (map : SortedMap α) : map.Carries ∅ :=
  fun _ _ found => by cases found

theorem carries_overlay (lower upper : SortedMap α) : (lower.overlay upper).Carries upper :=
  fun key value found => by rw [find?_overlay, found]; rfl

theorem Carries.overlay_eq {map other : SortedMap α} (carries : map.Carries other) :
    map.overlay other = map := by
  refine ext_find? fun key => ?_
  rw [find?_overlay]
  cases found : other.find? key with
  | none => rfl
  | some value => exact (carries key value found).symm

end SortedMap

namespace Creator

/-- No object fails to come into being for its kind. -/
theorem exists_ofTree (registry : Registry) {tree : Tree} (root : tree.json.isObject = true) :
    ∃ object, ((dynamic registry).ofTree tree).result = .ok object := by
  have generic : genericObject tree = .ok (.generic (.ofTree tree)) := by
    rw [genericObject, Generic.ofTree?, if_pos root]
  rw [ofTree]
  split
  next => exact ⟨_, generic⟩
  next =>
    split
    next => exact ⟨_, generic⟩
    next => exact ⟨_, generic⟩
    next =>
      split
      next typed _ => exact ⟨.typed typed, rfl⟩
      next => exact ⟨_, generic⟩

theorem labels_of_ofTree {registry : Registry} {tree : Tree} {object : Object}
    (created : ((dynamic registry).ofTree tree).result = .ok object) :
    object.labels = Generic.stringMap? tree "labels" := by
  obtain ⟨kind, typed, decoded, rfl⟩ | ⟨-, rfl⟩ := made_of_ofTree created
  · exact congrArg Told.labels (Typed.told_eq decoded)
  · rfl

theorem depth_of_ofTree {registry : Registry} {tree : Tree} {object : Object}
    (created : ((dynamic registry).ofTree tree).result = .ok object)
    (fits : tree.json.depth ≤ Json.nestingLimit) : object.toJson.depth ≤ Json.nestingLimit := by
  obtain ⟨kind, typed, decoded, rfl⟩ | ⟨-, rfl⟩ := made_of_ofTree created
  · have written := (Typed.decode_toTree tree.canonical decoded).2
    exact Kubernetes.depth_of_decode kind.distinct_schema tree.canonical written fits
      kind.height_schema
  · rwa [Object.toJson, Object.toTree, Generic.toTree_ofTree]

theorem isObject_of_ofTree {registry : Registry} {tree : Tree} {object : Object}
    (created : ((dynamic registry).ofTree tree).result = .ok object) :
    object.toJson.isObject = true := by
  obtain ⟨kind, typed, -, rfl⟩ | ⟨root, rfl⟩ := made_of_ofTree created
  · rfl
  · rwa [Object.toJson, Object.toTree, Generic.toTree_ofTree]

end Creator

theorem Typed.toTree_setLabels (object : Typed) (labels : SortedMap String) :
    ((Object.typed object).setLabels labels).toTree =
      Generic.setMetadata object.toTree "labels" (.ofStringMap labels) := by
  obtain ⟨members, members_eq, finds⟩ := object.exists_members
  obtain ⟨metadata, metadata_eq, held⟩ := object.metadata.exists_members
  have found : members.find? "metadata" = some (.object metadata) := by
    rw [finds, ← metadata_eq]
    rfl
  rw [Generic.setMetadata, members_eq, Tree.members?_object]
  simp only [found, Option.bind_some, Tree.members?_object, Option.getD_some]
  refine congrArg Tree.object (SortedMap.ext_find? fun key => ?_)
  by_cases eq : key = "metadata"
  · simp only [eq, SortedMap.find?_insert, if_pos, Option.some.injEq]
    refine congrArg Tree.object (SortedMap.ext_find? fun field => ?_)
    obtain ⟨written, written_eq, holds⟩ :=
      ObjectMeta.exists_members { object.metadata with labels := some labels }
    rw [ObjectMeta.toTree] at written_eq
    have written_eq := Option.some.inj
      ((Tree.members?_object _).symm.trans ((congrArg Tree.members? written_eq).trans
        (Tree.members?_object _)))
    rw [written_eq, holds, SortedMap.find?_insert, held]
    by_cases here : field = "labels"
    · simp [here, ObjectMeta.field?]
    · simp [here, ObjectMeta.field?]
  · simp only [SortedMap.find?_insert, if_neg eq, finds, Typed.member?]

theorem Generic.toTree_setLabels (tree : Tree) (labels : SortedMap String) :
    ((Object.generic (.ofTree tree)).setLabels labels).toTree =
      writeMap tree "labels" (some labels) :=
  toTree_labels tree (some labels)

theorem Generic.depth_setMetadata {data value : Tree} {room : Nat} (fits : data.json.depth ≤ room + 2)
    (field : String) (value_fits : value.json.depth ≤ room) :
    (setMetadata data field value).json.depth ≤ room + 2 := by
  have inserted {map : SortedMap Tree} {key : String} {value : Tree} {room : Nat}
      (fits : (Tree.object map).json.depth ≤ room + 1) (value_fits : value.json.depth ≤ room) :
      (Tree.object (map.insert key value)).json.depth ≤ room + 1 := by
    refine Json.depth_object_le_iff.2 fun member mem => ?_
    obtain ⟨⟨other, tree⟩, inMap, rfl⟩ := List.mem_map.1 mem
    have found : (map.insert key value).find? other = some tree :=
      (map.insert key value).sorted.find?_of_mem inMap
    rw [SortedMap.find?_insert] at found
    split at found
    · cases found
      exact value_fits
    · exact Json.depth_object_le_iff.1 fits _
        (List.mem_map_of_mem (f := fun entry => (entry.1, entry.2.json)) (Entries.mem_of_find? found))
  rw [setMetadata]
  cases held : data.members? with
  | none => exact fits
  | some members =>
    obtain rfl := Tree.eq_object_of_members? held
    refine inserted fits (inserted ?_ value_fits)
    -- the metadata that is there is a member, any other is empty
    cases found : (members.find? "metadata").bind Tree.members? with
    | none => exact Nat.succ_le_succ (Nat.zero_le room)
    | some metadata =>
      obtain ⟨tree, held, members_eq⟩ := Option.bind_eq_some_iff.1 found
      obtain rfl := Tree.eq_object_of_members? members_eq
      exact Json.depth_object_le_iff.1 fits _
        (List.mem_map_of_mem (f := fun entry => (entry.1, entry.2.json)) (Entries.mem_of_find? held))

theorem Json.Tree.depth_ofStringMap (map : SortedMap String) : (ofStringMap map).json.depth ≤ 1 := by
  refine Json.depth_object_le_iff.2 fun member mem => ?_
  obtain ⟨entry, inMap, rfl⟩ := List.mem_map.1 mem
  obtain ⟨text, -, rfl⟩ := List.mem_map.1 inMap
  exact Nat.le_refl 0

namespace Labels

variable {registry : Registry} {labels : SortedMap String} {tree : Tree} {first : Object}

def label (labels : SortedMap String) (object : Object) : Object :=
  object.editLabels fun current => current.overlay labels

/-- What comes of an object on which labels are set: its form with the labels in it, or its very
tree if it is generic and there was nothing to write. -/
inductive Labelled (labels : SortedMap String) (tree : Tree) (object : Object) : Tree → Prop where
  | written (root : object.toJson.isObject = true) :
    Labelled labels tree object (Generic.setMetadata object.toTree "labels"
      (.ofStringMap ((object.labels.getD ∅).overlay labels)))
  | unchanged (generic : object = .generic (.ofTree tree))
    (held : labels = ∅ ∨ Generic.stringMap? tree "labels" =
      some ((object.labels.getD ∅).overlay labels)) : Labelled labels tree object tree

theorem eq_empty_of_overlay {α : Type} {map : SortedMap α} (empty : (SortedMap.overlay ∅ map) = ∅) :
    map = ∅ := by
  refine SortedMap.ext_find? fun key => ?_
  have found := congrArg (SortedMap.find? · key) empty
  rw [SortedMap.find?_overlay] at found
  exact (Option.or_none ▸ found : map.find? key = _)

theorem labelled_toTree (created : ((Creator.dynamic registry).ofTree tree).result = .ok first) :
    Labelled labels tree first (label labels first).toTree := by
  have root := Creator.isObject_of_ofTree created
  obtain ⟨kind, typed, -, rfl⟩ | ⟨-, rfl⟩ := Creator.made_of_ofTree created
  · rw [label, Object.editLabels, Typed.toTree_setLabels]
    exact .written root
  · have same : (Object.generic (.ofTree tree)).toTree = tree := Generic.toTree_ofTree tree
    have written : Labelled labels tree (.generic (.ofTree tree)) (Generic.setMetadata _ _ _) :=
      .written root
    rw [same] at written
    rw [label, Object.editLabels, Generic.toTree_setLabels, Generic.writeMap]
    split
    next held =>
      refine .unchanged rfl ?_
      rw [Bool.or_eq_true] at held
      rcases held with held | held
      · exact .inr (of_decide_eq_true held)
      · rw [Bool.and_eq_true] at held
        have missing := Option.isNone_iff_eq_none.1 held.1
        have empty := SortedMap.eq_empty_of_isEmpty _ held.2
        rw [show (Object.generic (.ofTree tree)).labels = none from missing] at empty
        exact .inl (eq_empty_of_overlay empty)
    next => exact written

/-- Setting labels on an object changes nothing in what is written, and overwrites none. -/
structure Settled (labels : SortedMap String) (object : Object) : Prop where
  same : (label labels object).toJson = object.toJson
  carries : (object.labels.getD ∅).Carries labels

theorem Settled.of_labels {object : Object} {current : SortedMap String}
    (held : object.labels = some current) (carries : current.Carries labels) :
    Settled labels object where
  same := by
    have kept : object.setLabels current = object := by
      cases object with
      | typed typed =>
        obtain ⟨kind, metadata, body⟩ := typed
        cases metadata
        cases held
        rfl
      | generic generic =>
        obtain ⟨data, labels, annotations⟩ := generic
        cases held
        rfl
    rw [label, Object.editLabels, held, Option.getD_some, carries.overlay_eq, kept]
  carries := by rwa [held]

theorem label_empty (tree : Tree) :
    (label ∅ (.generic (.ofTree tree))).toJson = (Object.generic (.ofTree tree)).toJson := by
  have none_over (map : SortedMap String) : map.overlay ∅ = map :=
    (SortedMap.carries_empty _).overlay_eq
  rw [label, Object.editLabels, Object.toJson, Generic.toTree_setLabels, Object.toJson, Object.toTree,
    Generic.toTree_ofTree, none_over]
  change (Generic.writeMap tree "labels" (some ((Generic.stringMap? tree "labels").getD ∅))).json = _
  cases held : Generic.stringMap? tree "labels" with
  | none =>
    rw [Option.getD_none, Generic.writeMap, held]
    rfl
  | some map => simp [Generic.writeMap, held]

/-- An object that comes of the written form of one on which labels were set, with whatever registry
and whichever numbers re-read, has the labels. With the same registry nothing is left to set. -/
theorem settled (created : ((Creator.dynamic registry).ofTree tree).result = .ok first) {again : Tree}
    (rereads : (label labels first).toJson.Rereads again.json) :
    (∀ (other : Registry) (object : Object), ((Creator.dynamic other).ofTree again).result = .ok object →
      (object.labels.getD ∅).Carries labels) ∧
    ∀ second, ((Creator.dynamic registry).ofTree again).result = .ok second →
      Settled labels second := by
  have made : Labelled labels tree first (label labels first).toTree := labelled_toTree created
  have same := Generic.stringMap?_of_rereads rereads "labels"
  rw [Object.toJson] at rereads
  generalize (label labels first).toTree = form at made rereads same
  have of_held (held : Generic.stringMap? form "labels" =
      some ((first.labels.getD ∅).overlay labels)) (other : Registry) (object : Object)
      (made : ((Creator.dynamic other).ofTree again).result = .ok object) :
      Settled labels object :=
    .of_labels ((Creator.labels_of_ofTree made).trans (same.trans held))
      (SortedMap.carries_overlay _ _)
  have of_all (all : ∀ (other : Registry) (object : Object),
      ((Creator.dynamic other).ofTree again).result = .ok object → Settled labels object) :=
    And.intro (fun other object made => (all other object made).carries) (all registry)
  cases made with
  | written root =>
    refine of_all (of_held ?_)
    rw [Generic.stringMap?, Generic.metadata?_setMetadata_self root, Option.bind_some,
      Tree.stringMap?_ofStringMap]
  | unchanged generic held =>
    rcases held with rfl | held
    · -- with no labels to set, the object comes out as generic as it was
      subst generic
      refine ⟨fun _ _ _ => SortedMap.carries_empty _, fun second remade => ?_⟩
      cases (Creator.generic_of_rereads created rereads).symm.trans remade
      exact ⟨label_empty again, SortedMap.carries_empty _⟩
    · exact of_all (of_held held)

theorem depth_label (created : ((Creator.dynamic registry).ofTree tree).result = .ok first)
    (fits : tree.json.depth ≤ Json.nestingLimit) :
    (label labels first).toJson.depth ≤ Json.nestingLimit := by
  have made : Labelled labels tree first (label labels first).toTree := labelled_toTree created
  have first_fits := Creator.depth_of_ofTree created fits
  rw [Object.toJson]
  generalize (label labels first).toTree = again at made
  cases made with
  | written root =>
    exact Generic.depth_setMetadata first_fits "labels"
      (Nat.le_trans (Tree.depth_ofStringMap _) (by decide))
  | unchanged => exact fits

theorem isObject_label (created : ((Creator.dynamic registry).ofTree tree).result = .ok first) :
    (label labels first).toJson.isObject = true := by
  have made : Labelled labels tree first (label labels first).toTree := labelled_toTree created
  have root := Creator.isObject_of_ofTree created
  rw [Object.toJson]
  generalize (label labels first).toTree = again at made
  cases made with
  | written root => exact Generic.isObject_setMetadata root "labels" _
  | unchanged generic =>
    rw [generic, Object.toJson, Object.toTree, Generic.toTree_ofTree] at root
    exact root

end Labels

end Admission
