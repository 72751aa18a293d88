import Admission.Proofs.Webhook.MutatorNesting
import Admission.Proofs.Webhook.ValidatorNesting

/-! Nesting of chains does not matter, neither of mutators nor of validators. -/

set_option autoImplicit false

namespace Admission

variable {σ : Type}

/-- Chains inside of which no chain is empty behave as the flat chains of their leaves: they make
the same calls of leaves, each on the same object in the same world, and end with the same outcome,
the same object in place and the same world. -/
theorem nesting_is_flat (logger flatLogger : Logger) (context : Context) (review : Review)
    (object : Object) (state : State σ) :
    (∀ steps : List (Mutator σ), (∀ step ∈ steps, step.Full) →
      let nested := Mutator.chain logger steps
      let flat := Mutator.chain flatLogger (Mutator.leavesOf steps)
      nested.calls context review object state = flat.calls context review object state ∧
      (nested.run context review object state).outcome =
        (flat.run context review object state).outcome ∧
      (nested.run context review object state).object =
        (flat.run context review object state).object ∧
      (nested.run context review object state).state.world =
        (flat.run context review object state).state.world) ∧
    (∀ steps : List (Validator σ), (∀ step ∈ steps, step.Full) →
      let nested := Validator.chain logger steps
      let flat := Validator.chain flatLogger (Validator.leavesOf steps)
      nested.calls context review object state = flat.calls context review object state ∧
      (nested.run context review object state).outcome =
        (flat.run context review object state).outcome ∧
      (nested.run context review object state).state.world =
        (flat.run context review object state).state.world) := by
  constructor
  · intro steps full
    have same := Mutator.effect_flat full logger flatLogger context review object state.world
    rw [← Mutator.effect_run, ← Mutator.effect_run] at same
    exact ⟨Mutator.calls_flat full logger flatLogger context review object state,
      congrArg Mutator.Effect.outcome same, congrArg Mutator.Effect.object same,
      congrArg Mutator.Effect.world same⟩
  · intro steps full
    have same :=
      Validator.effect_flat full logger flatLogger context review object state.world
    rw [← Validator.effect_run, ← Validator.effect_run] at same
    exact ⟨Validator.calls_flat full logger flatLogger context review object state,
      congrArg Validator.Effect.outcome same, congrArg Validator.Effect.world same⟩

def rejecting : Validator Unit :=
  .leaf fun _ _ _ world =>
    ⟨.done { valid := false, message := "rejected", warnings := ["seen"], stop := true }, world⟩

def accepting : Validator Unit :=
  .leaf fun _ _ _ world => ⟨.done { warnings := ["accepted"] }, world⟩

/-- What stands behind an inner chain that asked to stop is not run. -/
theorem nesting_is_flat_stopped :
    let context : Context := { signal := ⟨0, none⟩ }
    let object : Object := .generic (.ofTree (.object ∅))
    let state : State Unit := ⟨⟨0, 1, [], ()⟩, {}⟩
    (Mutator.chain .silent
      [.chain .silent [.renamed, .chain .silent [.lastNamed]], .renamed]).calls context default
        object state =
      (Mutator.chain .silent [.renamed, .lastNamed, .renamed]).calls context default object state ∧
    ((Validator.chain .silent
      [.chain .silent [accepting, .chain .silent [rejecting]], accepting]).run context default
        object state).outcome =
      ((Validator.chain .silent [accepting, rejecting, accepting]).run context default object
        state).outcome := by
  intro context object state
  have full_mutators : ∀ step ∈
      [Mutator.chain .silent [.renamed, .chain .silent [.lastNamed]], .renamed], step.Full :=
    List.forall_mem_cons.2 ⟨.chain _ (List.cons_ne_nil _ _) (List.forall_mem_cons.2 ⟨.leaf _,
      List.forall_mem_singleton.2 (.chain _ (List.cons_ne_nil _ _)
        (List.forall_mem_singleton.2 (.leaf _)))⟩), List.forall_mem_singleton.2 (.leaf _)⟩
  have full_validators : ∀ step ∈
      [Validator.chain .silent [accepting, .chain .silent [rejecting]], accepting], step.Full :=
    List.forall_mem_cons.2 ⟨.chain _ (List.cons_ne_nil _ _) (List.forall_mem_cons.2 ⟨.leaf _,
      List.forall_mem_singleton.2 (.chain _ (List.cons_ne_nil _ _)
        (List.forall_mem_singleton.2 (.leaf _)))⟩), List.forall_mem_singleton.2 (.leaf _)⟩
  have flat := nesting_is_flat .silent .silent context default object state
  exact ⟨(flat.1 _ full_mutators).1, (flat.2 _ full_validators).2.1⟩

end Admission
