import Admission.Telemetry.Logger
import Admission.Webhook.Failure

/-! Mutators and chains of them. Each mutator of a chain is handed the object that the one before
it produced. -/

set_option autoImplicit false

namespace Admission

/-- What a mutator did. Without a replacement the object it was handed is the result, as the
mutator left it. -/
structure Mutation where
  replacement : Option Object := none
  warnings : List String := []
  stop : Bool := false

/-- What a call of business logic leads to. The object stands as the call left it, also when the
call failed. -/
structure Mutator.Call (σ : Type) where
  outcome : Outcome Failure Mutation
  object : Object
  world : World σ
  remarks : List Remark := []

/-- Business logic. It is handed the whole context of the review, with its values and spans. -/
abbrev Mutator.Leaf (σ : Type) : Type :=
  Context → Review → Object → World σ → Mutator.Call σ

inductive Mutator (σ : Type) where
  | leaf (call : Mutator.Leaf σ)
  | chain (logger : Logger) (steps : List (Mutator σ))

instance {σ : Type} : Inhabited (Mutator σ) :=
  ⟨.chain .silent []⟩

structure Mutator.Run (σ : Type) where
  outcome : Outcome Failure Mutation
  object : Object
  state : State σ

def State.remark {σ : Type} (state : State σ) (context : Context) (remark : Remark) : State σ :=
  let fields := match remark.kind? with
    | some kind => [("gvk", Json.string kind.text)]
    | none => []
  state.note (.event .debug remark.message fields context.scope)

def State.remarks {σ : Type} (state : State σ) (context : Context) (remarks : List Remark) :
    State σ :=
  remarks.foldl (fun state remark => state.remark context remark) state

namespace Mutator

variable {σ : Type}

def chainLogger (logger : Logger) : Logger :=
  logger.withValues (.ofList [("svc", .string "mutator.Chain")])

mutual

def run (mutator : Mutator σ) (context : Context) (review : Review) (object : Object)
    (state : State σ) : Run σ :=
  match mutator with
  | .leaf call =>
    let done := call context review object state.world
    ⟨done.outcome, done.object, { state with world := done.world }.remarks context done.remarks⟩
  | .chain logger steps => runSteps (chainLogger logger) steps context review object {} state

/-- Run the steps of a chain, `sofar` being what the steps before them did. A failure is that of
the chain, and what was done before it is lost, but for the changes made in place. -/
def runSteps (logger : Logger) (steps : List (Mutator σ)) (context : Context) (review : Review)
    (object : Object) (sofar : Mutation) (state : State σ) : Run σ :=
  match steps with
  | [] => ⟨.done sofar, object, state⟩
  | step :: steps =>
    if context.isDone state.world then ⟨.failed (.cancelled .mutating), object, state⟩
    else
      let ran := step.run context review (sofar.replacement.getD object) state
      let left := if sofar.replacement.isSome then object else ran.object
      match ran.outcome with
      | .failed failure => ⟨.failed failure, left, ran.state⟩
      | .panicked message => ⟨.panicked message, left, ran.state⟩
      | .done mutation =>
        let kept := sofar.replacement.map fun _ => ran.object
        let sofar : Mutation :=
          { replacement := mutation.replacement.or kept
            warnings := sofar.warnings ++ mutation.warnings
            stop := mutation.stop }
        if mutation.stop then
          ⟨.done sofar, left,
            logger.report context .debug "chain stopped by a mutator" ran.state⟩
        else runSteps logger steps context review left sofar ran.state

end

end Mutator

end Admission
