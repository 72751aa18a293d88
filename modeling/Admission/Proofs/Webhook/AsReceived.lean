import Admission.Proofs.Json.CanonicalPatch
import Admission.Proofs.Kubernetes.Patching
import Admission.Proofs.Object.ReadingBack
import Admission.Proofs.Object.Rereading
import Admission.Proofs.Webhook.Mutating

/-! The patch that a webhook answers is made for the written form of the object it was handed. What
it does to the value that the object was decoded from is another matter: members that only the
written form has cannot be changed or removed there. -/

set_option autoImplicit false

namespace Admission

open Json (Patch)

variable {σ : Type}

theorem Creator.holds_of_typed {creator : Creator} {raw : Bytes} {object : Typed}
    (created : (creator.newObject raw).result = .ok (.typed object)) :
    ∃ tree, Holds raw tree ∧ Typed.decode object.kind tree.json = .ok object := by
  have generic_ne (tree : Json.Tree) : genericObject tree ≠ .ok (.typed object) := by
    intro made
    rw [genericObject] at made
    split at made <;> cases made
  cases held : decodeRaw raw with
  | error error => rw [newObject_of_error _ held] at created; cases created
  | ok tree =>
    have holds := decodeRaw_eq_ok_iff.1 held
    refine ⟨tree, holds, ?_⟩
    -- a decoded object knows its kind, so any kind that decodes to it will do
    suffices decoded : ∃ kind, Typed.decode kind tree.json = .ok object by
      obtain ⟨kind, decoded⟩ := decoded
      rwa [(Typed.decode_toTree tree.canonical decoded).1]
    rw [newObject_of_holds _ holds] at created
    cases creator with
    | static kind =>
      rw [ofTree] at created
      split at created
      next decoded => cases created; exact ⟨kind, decoded⟩
      next => cases created
    | dynamic registry =>
      rw [ofTree] at created
      split at created
      next => exact absurd created (generic_ne tree)
      next =>
        split at created
        next => exact absurd created (generic_ne tree)
        next => exact absurd created (generic_ne tree)
        next kind _ =>
          split at created
          next decoded => cases created; exact ⟨kind, decoded⟩
          next => exact absurd created (generic_ne tree)

namespace Typed

/-- What a mutation makes of an object: the object edited, or another one of its kind. The written
form of whichever is kept reads back. -/
inductive MutatedTo (received : Typed) : Object → Prop where
  | edited (reads : received.ReadsBack) (edits : List Edit) :
    MutatedTo received ((Object.typed received).editAll edits).1
  | replaced {other : Typed} (kind_eq : other.kind = received.kind) (reads : other.ReadsBack) :
    MutatedTo received (.typed other)

theorem MutatedTo.exists_typed {received : Typed} {final : Object} (made : received.MutatedTo final) :
    ∃ other : Typed, final = .typed other ∧ other.kind = received.kind ∧ other.ReadsBack := by
  cases made with
  | edited reads edits => exact Object.readsBack_editAll reads edits
  | @replaced other kind_eq reads => exact ⟨other, rfl, kind_eq, reads⟩

/-- The difference between an object and one of its kind whose form reads back, applied to the value
that the object was decoded from: it runs through exactly if that value has all it reaches into, and
what it then makes is decoded to the other object. -/
theorem run?_diff_decoded {json : Json} (canonical : json.Canonical) {received final : Typed}
    (decoded : decode received.kind json = .ok received) (kind_eq : final.kind = received.kind)
    (reads : final.ReadsBack) :
    let operations := Json.diff received.toTree.json final.toTree.json
    ((Patch.run? operations json).isSome = true ↔
      Json.Fits json received.toTree.json final.toTree.json) ∧
    ∀ patched, Patch.run? operations json = some patched → ∃ again,
      decode received.kind patched = .ok again ∧
      again.toTree.json.same final.toTree.json = true := by
  have old := received.toTree.canonical
  have new := final.toTree.canonical
  have distinct := received.kind.distinct_schema
  have before := Kubernetes.Reads.of_decode (decode_toTree canonical decoded).2
  rw [ReadsBack, kind_eq] at reads
  refine ⟨⟨fun ran => ?_, fun fits => ?_⟩, fun patched ran => ?_⟩
  · obtain ⟨patched, ran⟩ := Option.isSome_iff_exists.1 ran
    exact (Kubernetes.reached _ distinct canonical old new before reads ran).1
  · exact Option.isSome_iff_exists.2 (fits.exists_run? canonical old new)
  · obtain ⟨tree, tree_decoded, same⟩ :=
      (Kubernetes.reached _ distinct canonical old new before reads ran).2
    have patched_canonical := Patch.canonical_run?
      (Json.carries_diff Json.Canonical.hereditary new) canonical ran
    have again_decoded : decode received.kind patched =
        .ok (ofMembers received.kind (tree.members?.getD ∅)) := by
      rw [decode, tree_decoded]
      rfl
    refine ⟨_, again_decoded, ?_⟩
    have written := (decode_toTree patched_canonical again_decoded).2
    rwa [← Except.ok.inj (tree_decoded.symm.trans written)]

end Typed

namespace Reviewer

/-- The patch that answers for an object of a kind applies to the value as it was received exactly if
that value has every member that the patch changes or removes. The value that comes out is then
decoded. The operations of the patch make a value that is decoded to the mutated object, and so does
its text, in which numbers that are no integers are estimated, if those of that object read back. -/
theorem mutate_patch_as_received {reviewer : Reviewer (Mutator σ)} {context : Context}
    {review : Review} {state : State σ} {received : Typed}
    (created : (reviewer.creator.newObject review.rawObject).result = .ok (.typed received))
    {mutation : Mutation}
    (mutated : (reviewer.mutation context review (.typed received) state).outcome = .done mutation)
    {final : Object}
    (ended : (reviewer.mutation context review (.typed received) state).final mutation = final)
    (made : received.MutatedTo final) :
    ∃ tree patch operations,
      Holds review.rawObject tree ∧ Typed.decode received.kind tree.json = .ok received ∧
      (reviewer.mutate context review state).outcome =
        .done (.mutating review.id patch mutation.warnings) ∧
      Patch.ofBytes? patch = some operations.reread ∧
      (final.toJson.ReadsBack → operations.reread = operations) ∧
      ((Patch.run? operations.reread tree.json).isSome = true ↔
        Json.Fits tree.json received.toTree.json final.toJson) ∧
      (∀ patched, Patch.run? operations.reread tree.json = some patched →
        (Typed.decode received.kind patched).isOk = true) ∧
      ∀ patched, Patch.run? operations tree.json = some patched → ∃ again,
        Typed.decode received.kind patched = .ok again ∧
        again.toTree.json.same final.toJson = true := by
  obtain ⟨tree, holds, decoded⟩ := Creator.holds_of_typed created
  obtain ⟨other, rfl, kind_eq, reads⟩ := made.exists_typed
  have answered := mutate_eq_done_iff.2 ⟨_, mutation, created, mutated, rfl⟩
  rw [ended] at answered
  obtain ⟨runs, again⟩ := Typed.run?_diff_decoded tree.canonical decoded kind_eq reads
  refine ⟨tree, _, _, holds, decoded, answered, Json.ofBytes?_diff _ other.toTree.canonical,
    Json.reread_diff _, (congrArg (· = true) (Patch.isSome_run?_reread _ _)).to_iff.trans runs,
    fun patched ran => ?_, again⟩
  -- what the patch makes as it is read differs in numbers from what its operations make
  obtain ⟨result, applied⟩ := Option.isSome_iff_exists.1
    ((Patch.isSome_run?_reread _ tree.json).symm.trans (Option.isSome_iff_exists.2 ⟨patched, ran⟩))
  obtain ⟨patched', ran', rereads⟩ := Patch.exists_run?_reread applied
  obtain rfl := Option.some.inj (ran.symm.trans ran')
  obtain ⟨object, result_decoded, -⟩ := again result applied
  rw [Typed.isOk_decode_of_rereads rereads, result_decoded]
  rfl

def labelling : Reviewer (Mutator Unit) where
  id := "labelling"
  logic := .leaf fun _ _ object world =>
    ⟨.done {}, object.editLabels fun labels => labels.insert "team" "x", world, []⟩
  creator := .static .pod
  logger := .silent

def reviewOf (json : Json) : Review :=
  { (default : Review) with newObject := rawBytes (some json) }

def podWithMetadata : Json :=
  .object [("apiVersion", .string "v1"), ("kind", .string "Pod"), ("metadata", .object [])]

/-- The pod that both this value and one without metadata are decoded to. -/
def plainPod : Typed where
  kind := .pod
  metadata := ⟨none, none, none, none, ∅⟩
  body := ∅

def labelledPod : Typed where
  kind := .pod
  metadata := ⟨none, none, some (SortedMap.insert ∅ "team" "x"), none, ∅⟩
  body := ∅

theorem holds_reviewOf_iff {json : Json} (isObject : json.isObject = true)
    (fits : json.depth ≤ Json.nestingLimit) (reads : json.ReadsBack) {tree : Json.Tree} :
    Holds (reviewOf json).rawObject tree ↔ tree = .ofJson json := by
  rw [← decodeRaw_eq_ok_iff, show (reviewOf json).rawObject = rawBytes (some json) from rfl,
    decodeRaw_rawBytes isObject fits, reads, Except.ok.injEq, eq_comm]

theorem labelling_created {json : Json} (isObject : json.isObject = true)
    (fits : json.depth ≤ Json.nestingLimit) (reads : json.ReadsBack) (canonical : json.Canonical)
    (decoded : Typed.decode .pod json = .ok plainPod) :
    (labelling.creator.newObject (reviewOf json).rawObject).result = .ok (.typed plainPod) := by
  rw [Creator.newObject_of_holds _ ((holds_reviewOf_iff isObject fits reads).2 rfl)]
  exact Creator.static_ofTree (by rwa [Json.Tree.json_ofJson canonical])

/-- A pod that has metadata is labelled by the patch. -/
theorem patch_labels_pod_with_metadata : ∃ patch operations patched again,
    (labelling.mutate { signal := ⟨0, none⟩ } (reviewOf podWithMetadata) ⟨⟨0, 1, [], ()⟩, {}⟩).outcome =
      .done (.mutating "" patch []) ∧
    Patch.ofBytes? patch = some operations ∧
    Patch.run? operations podWithMetadata = some patched ∧
    Typed.decode .pod patched = .ok again ∧
    again.toTree.json.same labelledPod.toTree.json = true := by
  have canonical : podWithMetadata.Canonical := (Json.Tree.ofJson podWithMetadata).canonical
  have written : podWithMetadata.ReadsBack := rfl
  have decoded : Typed.decode .pod podWithMetadata = .ok plainPod := rfl
  have reads : plainPod.ReadsBack := ⟨plainPod.toTree, rfl, Json.same_refl _⟩
  have labelled_reads : labelledPod.ReadsBack := ⟨labelledPod.toTree, rfl, Json.same_refl _⟩
  have kind_eq : labelledPod.kind = plainPod.kind := rfl
  have created := labelling_created rfl (by decide) written canonical decoded
  have mutated : (labelling.mutation { signal := ⟨0, none⟩ } (reviewOf podWithMetadata)
      (.typed plainPod) ⟨⟨0, 1, [], ()⟩, {}⟩).outcome = .done {} := rfl
  have ended : (labelling.mutation { signal := ⟨0, none⟩ } (reviewOf podWithMetadata)
      (.typed plainPod) ⟨⟨0, 1, [], ()⟩, {}⟩).final {} =
        ((Object.typed plainPod).editAll [.labels (.insert "team" "x")]).1 := rfl
  obtain ⟨tree, patch, operations, holds, -, answered, read, back, runs, -, again⟩ :=
    mutate_patch_as_received created mutated ended (.edited reads _)
  -- the text holds the pod itself, in which the metadata are there to be labelled
  rw [(holds_reviewOf_iff rfl (by decide) written).1 holds,
    Json.Tree.json_ofJson canonical] at runs again
  have fits := (Typed.run?_diff_decoded canonical decoded kind_eq labelled_reads).1.1 rfl
  rw [back rfl] at read runs
  obtain ⟨patched, ran⟩ := Option.isSome_iff_exists.1 (runs.2 fits)
  obtain ⟨labelled, redecoded, same⟩ := again patched ran
  exact ⟨patch, operations, patched, labelled, answered, read, ran, redecoded, same⟩

/-- A pod without metadata is decoded to the same pod as one with metadata in which nothing is said.
The patch that labels it then adds the labels to metadata that the value does not have. -/
theorem patch_fails_on_pod_without_metadata : ∃ patch operations,
    Typed.decode .pod Creator.barePod = .ok plainPod ∧
    (labelling.mutate { signal := ⟨0, none⟩ } (reviewOf Creator.barePod) ⟨⟨0, 1, [], ()⟩, {}⟩).outcome =
      .done (.mutating "" patch []) ∧
    Patch.ofBytes? patch = some operations ∧
    Patch.run? operations Creator.barePod = none := by
  have canonical : Creator.barePod.Canonical := (Json.Tree.ofJson Creator.barePod).canonical
  have written : Creator.barePod.ReadsBack := rfl
  have decoded : Typed.decode .pod Creator.barePod = .ok plainPod := rfl
  have created := labelling_created rfl (by decide) written canonical decoded
  refine ⟨_, _, decoded, mutate_eq_done_iff.2 ⟨_, {}, created, rfl, rfl⟩,
    Json.ofBytes?_diff _ labelledPod.toTree.canonical, rfl⟩

end Reviewer

end Admission
