import Admission.Webhook.Mutator

/-! Validators and chains of them. A chain ends at the first validator that rejects the object. -/

set_option autoImplicit false

namespace Admission

structure Validation where
  valid : Bool := true
  /-- Shown to the user of an object that is not valid. -/
  message : String := ""
  warnings : List String := []
  stop : Bool := false
  deriving DecidableEq

structure Validator.Call (σ : Type) where
  outcome : Outcome Failure Validation
  world : World σ

abbrev Validator.Leaf (σ : Type) : Type :=
  Context → Review → Object → World σ → Validator.Call σ

inductive Validator (σ : Type) where
  | leaf (call : Validator.Leaf σ)
  | chain (logger : Logger) (steps : List (Validator σ))

instance {σ : Type} : Inhabited (Validator σ) :=
  ⟨.chain .silent []⟩

structure Validator.Run (σ : Type) where
  outcome : Outcome Failure Validation
  state : State σ

namespace Validator

variable {σ : Type}

def chainLogger (logger : Logger) : Logger :=
  logger.withValues (.ofList [("svc", .string "validator.Chain")])

def stopped (valid : Bool) : String :=
  "chain stopped by a validator, valid: " ++ toString valid

mutual

def run (validator : Validator σ) (context : Context) (review : Review) (object : Object)
    (state : State σ) : Run σ :=
  match validator with
  | .leaf call =>
    let done := call context review object state.world
    ⟨done.outcome, { state with world := done.world }⟩
  | .chain logger steps => runSteps (chainLogger logger) steps context review object [] state

/-- Run the steps of a chain, after others that gave `warnings`. -/
def runSteps (logger : Logger) (steps : List (Validator σ)) (context : Context) (review : Review)
    (object : Object) (warnings : List String) (state : State σ) : Run σ :=
  match steps with
  | [] => ⟨.done { warnings }, state⟩
  | step :: steps =>
    if context.isDone state.world then ⟨.failed (.cancelled .validating), state⟩
    else
      let ran := step.run context review object state
      match ran.outcome with
      | .failed failure => ⟨.failed failure, ran.state⟩
      | .panicked message => ⟨.panicked message, ran.state⟩
      | .done validation =>
        let warnings := warnings ++ validation.warnings
        if validation.stop || !validation.valid then
          ⟨.done { validation with warnings },
            logger.report context .debug (stopped validation.valid) ran.state⟩
        else runSteps logger steps context review object warnings ran.state

end

end Validator

end Admission
