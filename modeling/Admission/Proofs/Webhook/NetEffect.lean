import Admission.Proofs.Object.NetEffect
import Admission.Proofs.Webhook.Resubmission

/-! When a review answers that nothing is to be changed. Edits of the labels and annotations of a
generic object make for the empty patch exactly if they cancel out. A webhook that sets labels makes
for another one exactly if some label is not there, or if an object of a kind gets an empty map of
labels that it did not have. -/

set_option autoImplicit false

namespace Admission

open Text (utf8Bytes)

variable {σ : Type}

namespace Reviewer

variable {reviewer : Reviewer (Mutator σ)} {registry : Registry} {labels : SortedMap String}
  {context : Context} {review : Review} {state : State σ} {object : Object}

theorem exists_patch {mutation : Mutation}
    (created : (reviewer.creator.newObject review.rawObject).result = .ok object)
    (mutated : (reviewer.mutation context review object state).outcome = .done mutation) :
    ∃ patch, (reviewer.mutate context review state).outcome =
        .done (.mutating review.id patch mutation.warnings) ∧
      (patch = utf8Bytes "[]" ↔ object.toJson.same
        ((reviewer.mutation context review object state).final mutation).toJson = true) ∧
      (hasMutated patch = true ↔ object.toJson.same
        ((reviewer.mutation context review object state).final mutation).toJson = false) := by
  have old := object.canonical_toJson
  have new := ((reviewer.mutation context review object state).final mutation).canonical_toJson
  have changed := Json.hasMutated_diff old new
  refine ⟨_, mutate_eq_done_iff.2 ⟨object, mutation, created, mutated, rfl⟩, ?_, changed⟩
  constructor
  · intro nothing
    have unchanged : ¬ hasMutated (utf8Bytes "[]") = true := by decide
    rw [← nothing, changed, Bool.not_eq_false] at unchanged
    exact unchanged
  · intro same
    rw [Json.diff_eq_nil_of_same old new same]
    rfl

/-- However the maps of a generic object are used, it is written as the tree it was made of exactly if
its labels and annotations are those that it told at first. So a mutation that does no more is
answered with the empty patch exactly if it had no net effect. -/
theorem net_effect_shows {data : Json.Tree} {start : Generic} (made : Generic.ofTree? data = some start)
    (uses : List MapUse) :
    let left := (Object.generic start).useAll uses
    (left.toTree = data ↔ left.SameMaps (.generic start)) ∧
    ∀ (σ : Type) (reviewer : Reviewer (Mutator σ)) (context : Context) (review : Review)
      (state : State σ) (mutation : Mutation),
      (reviewer.creator.newObject review.rawObject).result = .ok (.generic start) →
      (reviewer.mutation context review (.generic start) state).outcome = .done mutation →
      (reviewer.mutation context review (.generic start) state).final mutation = left →
      ∃ patch, (reviewer.mutate context review state).outcome =
          .done (.mutating review.id patch mutation.warnings) ∧
        (patch = utf8Bytes "[]" ↔ left.SameMaps (.generic start)) := by
  intro left
  obtain ⟨same, equal⟩ := Generic.same_useAll_iff made uses
  refine ⟨equal, ?_⟩
  intro σ reviewer context review state mutation created mutated final
  obtain ⟨patch, answered, nothing, -⟩ := exists_patch created mutated
  have before : (Object.generic start).toJson = data.json := by
    obtain ⟨rfl, -⟩ := Generic.wellKept_of_ofTree? made
    exact congrArg Json.Tree.json (Generic.toTree_ofTree data)
  rw [final, before] at nothing
  exact ⟨patch, answered, nothing.trans same⟩

/-- A label is set, the annotations are looked at, and then the label that was there is put back in
place of all. -/
def restoring : List MapUse :=
  [.labels (some (.insert "team" "x")), .annotations none, .labels (some .clear),
    .labels (some (.insert "app" "web"))]

def restorer : Reviewer (Mutator Unit) where
  id := "restorer"
  logic := .leaf fun _ _ object world => ⟨.done {}, object.useAll restoring, world, []⟩
  creator := .dynamic .empty
  logger := .silent

def webCreation : Review :=
  creationOf (utf8Bytes "\x7b\"metadata\":\x7b\"labels\":\x7b\"app\":\"web\"\x7d\x7d\x7d")

theorem net_effect_shows_restored : ∃ (data : Json.Tree) (start : Generic),
    let left := (Object.generic start).useAll restoring
    Generic.ofTree? data = some start ∧
    (restorer.creator.newObject webCreation.rawObject).result = .ok (.generic start) ∧
    left.annotations = some ∅ ∧ start.annotations = none ∧ left.toTree = data ∧
    (restorer.mutate unhurried webCreation outset).outcome =
      .done (.mutating "" (utf8Bytes "[]") []) := by
  let labels : SortedMap String := (∅ : SortedMap String).insert "app" "web"
  let metadata : SortedMap Json.Tree := (∅ : SortedMap Json.Tree).insert "labels" (.ofStringMap labels)
  let data : Json.Tree := .object ((∅ : SortedMap Json.Tree).insert "metadata" (.object metadata))
  have made : Generic.ofTree? data = some (.ofTree data) := rfl
  have same : ((Object.generic (.ofTree data)).useAll restoring).SameMaps (.generic (.ofTree data)) :=
    ⟨by decide, by decide⟩
  obtain ⟨shows, answers⟩ := net_effect_shows made restoring
  obtain ⟨patch, answered, nothing⟩ :=
    answers Unit restorer unhurried webCreation outset {} rfl rfl rfl
  obtain rfl := nothing.2 same
  exact ⟨data, .ofTree data, made, rfl, by decide, rfl, shows.2 same, answered⟩

/-- A webhook that sets labels succeeds on whatever object comes into being. It changes the object if
one of the labels is not there with its value. If all are, it changes the object only if that is of
a kind and has no labels and there are none to set: then the object gets an empty map of them. -/
theorem labels_patch_iff (sets : Labels.Sets labels reviewer.logic)
    (dynamic : reviewer.creator = .dynamic registry) (notDone : context.isDone state.world = false)
    (created : (reviewer.creator.newObject review.rawObject).result = .ok object) :
    ∃ patch warnings, (reviewer.mutate context review state).outcome =
        .done (.mutating review.id patch warnings) ∧
      (hasMutated patch = true ↔
        (∃ key value, labels.find? key = some value ∧
          (object.labels.getD ∅).find? key ≠ some value) ∨
        labels = ∅ ∧ Labels.Unlabelled object) := by
  obtain ⟨after, ran⟩ := mutation_of_sets sets review object notDone
  obtain ⟨patch, answered, -, changed⟩ := exists_patch created (by rw [ran])
  refine ⟨patch, _, answered, changed.trans ?_⟩
  obtain ⟨tree, made⟩ := Creator.exists_tree created
  rw [dynamic] at made
  rw [ran, Mutator.Run.final, Option.getD_none, ← Bool.not_eq_true, Labels.same_label_iff made,
    not_and_or, not_not, SortedMap.Carries]
  simp only [not_forall, exists_prop]

theorem exists_barePod : ∃ pod : Typed, pod.metadata.labels = none ∧
    Json.diff (Object.typed pod).toJson (Labels.label ∅ (.typed pod)).toJson =
      [.add ["metadata", "labels"] (.object [])] ∧
    (teamSetter.creator.newObject (creationOf (rawBytes (some Creator.barePod))).rawObject).result =
      .ok (.typed pod) := by
  have holds : Holds (rawBytes (some Creator.barePod)) (.ofJson Creator.barePod) :=
    decodeRaw_eq_ok_iff.1 (decodeRaw_rawBytes rfl (by decide))
  have named : GroupVersionKind.ofObject? Creator.barePod = some ⟨"", "v1", "Pod"⟩ := by
    decide +kernel
  have declared := GroupVersionKind.ofObject?_eq_some_iff.1 named
  obtain ⟨pod, decoded, unlabelled, differs⟩ : ∃ pod, Typed.decode .pod Creator.barePod = .ok pod ∧
      pod.metadata.labels = none ∧
      Json.diff (Object.typed pod).toJson (Labels.label ∅ (.typed pod)).toJson =
        [.add ["metadata", "labels"] (.object [])] := ⟨_, rfl, rfl, rfl⟩
  refine ⟨pod, unlabelled, differs, ?_⟩
  refine (congrArg Creation.result (Creator.newObject_of_holds _ holds)).trans ?_
  exact Creator.ofTree_of_decodes ⟨⟨_, .register .pod, declared, rfl, rfl⟩, decoded⟩

/-- The pod gets the label that it does not have. -/
theorem labels_patch_iff_barePod : ∃ (pod : Typed) (patch : Bytes) (warnings : List String),
    let review := creationOf (rawBytes (some Creator.barePod))
    (teamSetter.creator.newObject review.rawObject).result = .ok (.typed pod) ∧
    unhurried.isDone outset.world = false ∧
    (teamSetter.mutate unhurried review outset).outcome = .done (.mutating "" patch warnings) ∧
    hasMutated patch = true := by
  obtain ⟨pod, unlabelled, -, created⟩ := exists_barePod
  have sets : Labels.Sets (SortedMap.insert ∅ "team" "x") teamSetter.logic := .chained .silent
  have notDone : unhurried.isDone outset.world = false := rfl
  obtain ⟨patch, warnings, answered, changed⟩ := labels_patch_iff sets rfl notDone created
  have lacks : ((Object.typed pod).labels.getD ∅).find? "team" ≠ some "x" := by
    rw [Object.labels, unlabelled]
    decide
  exact ⟨pod, patch, warnings, created, notDone, answered, changed.2 (.inl ⟨_, _, rfl, lacks⟩)⟩

/-- A webhook that has no labels to set, and knows pods. -/
def nothingSetter : Reviewer (Mutator Unit) :=
  { teamSetter with logic := Labels.mutator ∅ }

/-- No label of the pod has to change, and yet it gets an empty map of them. -/
theorem patches_pod_without_labels : ∃ pod : Typed,
    let review := creationOf (rawBytes (some Creator.barePod))
    let patch := utf8Bytes
      "[\x7b\"op\":\"add\",\"path\":\"/metadata/labels\",\"value\":\x7b\x7d\x7d]"
    (nothingSetter.creator.newObject review.rawObject).result = .ok (.typed pod) ∧
    unhurried.isDone outset.world = false ∧
    (∀ key value, (∅ : SortedMap String).find? key = some value →
      ((Object.typed pod).labels.getD ∅).find? key = some value) ∧
    (nothingSetter.mutate unhurried review outset).outcome = .done (.mutating "" patch []) ∧
    hasMutated patch = true := by
  obtain ⟨pod, -, differs, created⟩ := exists_barePod
  have ran : nothingSetter.mutation unhurried (creationOf (rawBytes (some Creator.barePod)))
      (.typed pod) outset = ⟨.done {}, Labels.label ∅ (.typed pod), _⟩ := rfl
  have lacksNone (key value : String) (found : (∅ : SortedMap String).find? key = some value) :
      ((Object.typed pod).labels.getD ∅).find? key = some value := by
    cases found
  refine ⟨pod, created, rfl, lacksNone, ?_, by decide⟩
  refine mutate_eq_done_iff.2 ⟨.typed pod, {}, created, by rw [ran], ?_⟩
  rw [ran, mutatingResponse, Mutator.Run.final, Option.getD_none, differs]
  rfl

end Reviewer

end Admission
