import Admission.Proofs.Webhook.MutatorCancellation
import Admission.Proofs.Webhook.ValidatorCancellation

/-! A request that is over stops a tree of chains at the next step, be they chains of mutators or of
validators. -/

set_option autoImplicit false

namespace Admission

variable {σ : Type}

/-- No leaf is called when the request is over. If it is over from the start, a tree with any step is
cancelled. If it is over behind a call of a leaf, that call is the last one; the tree ends with its
failure or with what it stopped with, and otherwise it is cancelled if some chain around the leaf has
a step behind the one that the leaf is in, and through if none has. -/
theorem cancellation_stops (logger : Logger) (context : Context) (review : Review)
    (object : Object) (state : State σ) :
    (∀ steps : List (Mutator σ),
      let tree := Mutator.chain logger steps
      let calls := tree.calls context review object state
      let ran := tree.run context review object state
      (∀ call ∈ calls, context.isDone call.world = false) ∧
      calls.map Mutator.LeafCall.leaf <+: (tree.nest.seats false).map Seat.leaf ∧
      (context.isDone state.world = true → calls = [] ∧
        ran.outcome = if steps.isEmpty then .done {} else .failed (.cancelled .mutating)) ∧
      ∀ before call after, calls = before ++ call :: after →
        let made := call.made context review
        context.isDone made.world = true → after = [] ∧ ∃ followed,
          (tree.nest.seats false)[before.length]? = some ⟨call.leaf, followed⟩ ∧
          Mutator.Tells context review [] (before ++ [call]) made.product ran.outcome
            ran.object (.interrupted made.ends followed)) ∧
    (∀ steps : List (Validator σ),
      let tree := Validator.chain logger steps
      let calls := tree.calls context review object state
      let ran := tree.run context review object state
      (∀ call ∈ calls, context.isDone call.world = false) ∧
      calls.map Validator.LeafCall.leaf <+: (tree.nest.seats false).map Seat.leaf ∧
      (context.isDone state.world = true → calls = [] ∧
        ran.outcome = if steps.isEmpty then .done {} else .failed (.cancelled .validating)) ∧
      ∀ before call after, calls = before ++ call :: after →
        let made := call.made context review
        context.isDone made.world = true → after = [] ∧ ∃ followed,
          (tree.nest.seats false)[before.length]? = some ⟨call.leaf, followed⟩ ∧
          Validator.Tells context review [] (before ++ [call]) ran.outcome
            (.interrupted made.ends followed)) :=
  ⟨fun _ => ⟨fun _ => Mutator.isDone_of_mem_calls, Mutator.calls_isPrefix, Mutator.run_of_isDone,
      fun _ _ _ => Mutator.run_of_interrupted⟩,
    fun _ => ⟨fun _ => Validator.isDone_of_mem_calls, Validator.calls_isPrefix,
      Validator.run_of_isDone, fun _ _ _ => Validator.run_of_interrupted⟩⟩

def cancelling : Mutator Unit :=
  .leaf fun context _ object world =>
    ⟨.done { warnings := ["cancelled"] }, object, world.cancel context.signal.token, []⟩

/-- A chain without steps behind the leaf that cancels makes the difference. -/
theorem cancellation_stops_before_empty_chain :
    let context : Context := { signal := ⟨0, none⟩ }
    let object : Object := .generic (.ofTree (.object ∅))
    let state : State Unit := ⟨⟨0, 1, [], ()⟩, {}⟩
    ((Mutator.chain .silent [.chain .silent [cancelling], .chain .silent []]).run context default
      object state).outcome = .failed (.cancelled .mutating) ∧
    ∃ result, ((Mutator.chain .silent [.chain .silent [], .chain .silent [cancelling]]).run context
      default object state).outcome = .done result ∧ result.warnings = ["cancelled"] := by
  intro context object state
  constructor
  · have stops := (cancellation_stops .silent context default object state).1
      [.chain .silent [cancelling], .chain .silent []]
    obtain ⟨-, followed, seat, tells⟩ := stops.2.2.2 [] _ [] rfl rfl
    cases seat
    cases tells with
    | cut cancelled => exact cancelled
  · have stops := (cancellation_stops .silent context default object state).1
      [.chain .silent [], .chain .silent [cancelling]]
    obtain ⟨-, followed, seat, tells⟩ := stops.2.2.2 [] _ [] rfl rfl
    cases seat
    cases tells with
    | through adds =>
      obtain ⟨result, done, -, warnings, -⟩ := adds
      exact ⟨result, done, warnings⟩

end Admission
