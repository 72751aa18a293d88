import Admission.Proofs.Json.PatchText
import Admission.Proofs.Object.Creation
import Admission.Proofs.Webhook.Chain
import Admission.Webhook.Basic

/-! What a mutating webhook answers: the text of a patch that makes the mutated object out of the
received one. -/

set_option autoImplicit false

namespace Admission

open Json (Patch)

variable {σ : Type}

theorem Object.canonical_toJson (object : Object) : object.toJson.Canonical :=
  object.toTree.canonical

namespace Reviewer

def begun (reviewer : Reviewer (Mutator σ)) (context : Context) (review : Review)
    (state : State σ) : State σ :=
  ((reviewer.loggerOf .mutating).report context .debug "webhook mutating review request received"
    state).remarks context (reviewer.creator.newObject review.rawObject).remark.toList

/-- The run of the logic of a mutating webhook on the object of a review. -/
def mutation (reviewer : Reviewer (Mutator σ)) (context : Context) (review : Review)
    (object : Object) (state : State σ) : Mutator.Run σ :=
  reviewer.logic.run context review object (reviewer.begun context review state)

/-- A mutating webhook answers exactly if there is an object and its mutation succeeds. -/
theorem mutate_eq_done_iff {reviewer : Reviewer (Mutator σ)} {context : Context} {review : Review}
    {state : State σ} {response : Response} :
    (reviewer.mutate context review state).outcome = .done response ↔
      ∃ object mutation, (reviewer.creator.newObject review.rawObject).result = .ok object ∧
        (reviewer.mutation context review object state).outcome = .done mutation ∧
        response = mutatingResponse review object
          ((reviewer.mutation context review object state).final mutation) mutation.warnings := by
  have runs (object : Object) : reviewer.logic.run context review object
      (((reviewer.loggerOf .mutating).report context .debug
        "webhook mutating review request received" state).remarks context
          (reviewer.creator.newObject review.rawObject).remark.toList) =
      reviewer.mutation context review object state := rfl
  simp only [mutate, runs]
  cases created : (reviewer.creator.newObject review.rawObject).result with
  | error error => simp
  | ok object =>
    cases ended : (reviewer.mutation context review object state).outcome with
    | failed failure => simp [ended]
    | panicked message => simp [ended]
    | done mutation => simp [ended, Mutator.Run.final, eq_comm]

/-- The operations of the patch that a mutating webhook answers turn the object that was received into
the one that the mutation ended with, and the patch counts as a change exactly if the two differ. Its
text is read as the operations with their numbers re-read, which estimates those that are no integers,
by any reader that bears the nesting of the final object and two brackets more. They apply all the same
and make the same value with some numbers re-read, or the very value if the numbers that the operations
carry read back. -/
theorem mutate_patch_round_trip {reviewer : Reviewer (Mutator σ)} {context : Context}
    {review : Review} {state : State σ} {response : Response}
    (answered : (reviewer.mutate context review state).outcome = .done response) :
    ∃ original mutation patch operations result patched,
      (reviewer.creator.newObject review.rawObject).result = .ok original ∧
      (reviewer.mutation context review original state).outcome = .done mutation ∧
      let final := (reviewer.mutation context review original state).final mutation
      response = .mutating review.id patch mutation.warnings ∧
      Patch.run? operations original.toJson = some result ∧ result.same final.toJson = true ∧
      Patch.ofBytes? patch = some operations.reread ∧
      (∀ limit, final.toJson.depth + 2 ≤ limit →
        Patch.parseWithin limit patch = some operations.reread) ∧
      Patch.run? operations.reread original.toJson = some patched ∧ result.Rereads patched ∧
      (operations.reread = operations → patched = result) ∧
      (final.toJson.ReadsBack → operations.reread = operations) ∧
      (hasMutated patch = true ↔ original.toJson.same final.toJson = false) := by
  obtain ⟨original, mutation, created, mutated, rfl⟩ := mutate_eq_done_iff.1 answered
  have old := original.canonical_toJson
  have new := ((reviewer.mutation context review original state).final mutation).canonical_toJson
  obtain ⟨result, ran, same⟩ := Json.run?_diff old new
  obtain ⟨patched, ran_again, rereads⟩ := Patch.exists_run?_reread ran
  refine ⟨original, mutation, _, _, result, patched, created, mutated, rfl, ran, same,
    Json.ofBytes?_diff _ new, fun limit => Json.parseWithin_diff _ new, ran_again, rereads,
    fun unchanged => ?_, Json.reread_diff original.toJson, Json.hasMutated_diff old new⟩
  rw [unchanged, ran] at ran_again
  exact (Option.some.inj ran_again).symm

/-- A webhook that names every object `b`. -/
def naming : Reviewer (Mutator Unit) where
  id := "naming"
  logic := .leaf fun _ _ object world => ⟨.done {}, object.setName "b", world, []⟩
  creator := .dynamic .empty
  logger := .silent

def nameless : Review :=
  { (default : Review) with newObject := Text.utf8Bytes "\x7b\"spec\":null\x7d" }

theorem naming_patch_round_trip : ∃ patch operations result,
    (naming.mutate { signal := ⟨0, none⟩ } nameless ⟨⟨0, 1, [], ()⟩, {}⟩).outcome =
      .done (.mutating "" patch []) ∧
    Patch.ofBytes? patch = some operations ∧
    Patch.run? operations (.object [("spec", .null)]) = some result ∧
    result.same (.object [("metadata", .object [("name", .string "b")]), ("spec", .null)]) = true ∧
    hasMutated patch = true := by
  obtain ⟨response, answered⟩ : ∃ response, (naming.mutate { signal := ⟨0, none⟩ } nameless
      ⟨⟨0, 1, [], ()⟩, {}⟩).outcome = .done response := ⟨_, rfl⟩
  obtain ⟨original, mutation, patch, operations, result, patched, created, mutated, rfl, ran, same,
    read, -, -, -, -, back, changed⟩ := mutate_patch_round_trip answered
  cases created
  cases mutated
  rw [back rfl] at read
  exact ⟨patch, operations, result, answered, read, ran, same, changed.2 rfl⟩

/-- What `6e49` is read as. The nearest binary64 is the next one. -/
def roughly : Binary64 :=
  ⟨false, 5777789833161707, 113, by decide⟩

def measuring : Reviewer (Mutator Unit) where
  id := "measuring"
  logic := .leaf fun _ _ object world =>
    ⟨.done { replacement := some (.unstructured (.object [("a", .number (.float roughly))])) }, object,
      world, []⟩
  creator := .dynamic .empty
  logger := .silent

/-- The patch does not make the final object: it says a number whose text is read as yet another
one. -/
theorem measuring_patch_misses : ∃ original mutation patch operations patched,
    Json.parse (Text.utf8Bytes "6e49") = .ok (.number (.float roughly)) ∧
    (measuring.creator.newObject nameless.rawObject).result = .ok original ∧
    (measuring.mutation { signal := ⟨0, none⟩ } nameless original ⟨⟨0, 1, [], ()⟩, {}⟩).outcome =
      .done mutation ∧
    let final := (measuring.mutation { signal := ⟨0, none⟩ } nameless original
      ⟨⟨0, 1, [], ()⟩, {}⟩).final mutation
    (measuring.mutate { signal := ⟨0, none⟩ } nameless ⟨⟨0, 1, [], ()⟩, {}⟩).outcome =
      .done (.mutating "" patch []) ∧
    Patch.ofBytes? patch = some operations ∧
    Patch.run? operations original.toJson = some patched ∧ patched.same final.toJson = false := by
  have final : Json.Canonical (.object [("a", .number (.float roughly))]) :=
    (Json.Tree.ofJson (.object [("a", .number (.float roughly))])).canonical
  have misses : (Json.Number.float roughly).reread.same (.float roughly) = false := by decide +kernel
  refine ⟨.unstructured (.object [("spec", .null)]), _, _, _,
    .object [("a", .number (.reread (.float roughly)))], rfl, rfl, rfl,
    mutate_eq_done_iff.2 ⟨_, _, rfl, rfl, rfl⟩, Json.ofBytes?_diff _ final, rfl, ?_⟩
  change Json.same (.object [("a", .number (.reread (.float roughly)))])
    (.object [("a", .number (.float roughly))]) = false
  simp [Json.same, Json.sameMembers, misses]

end Reviewer

end Admission
