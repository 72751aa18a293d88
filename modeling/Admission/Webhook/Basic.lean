import Admission.Json.Patch
import Admission.Telemetry.Tracer
import Admission.Webhook.Validator

/-! Webhooks: a mutating one answers a review with the patch that makes the mutated object out of
the received one, a validating one with its verdict. Either can be measured and traced. -/

set_option autoImplicit false

namespace Admission

structure Settings (α : Type) where
  /-- Names the webhook in logs, measurements and traces. -/
  id : String := ""
  logic : Option α := none
  /-- How objects come into being; if not given, out of the registry. -/
  creator : Option Creator := none
  /-- The types known to the webhook; if not given, the built-in kinds. -/
  registry : Option Registry := none
  logger : Option Logger := none

structure Reviewer (α : Type) where
  id : String
  logic : α
  creator : Creator
  logger : Logger

namespace Reviewer

/-- The reviewer of given settings. What is called `capability` must be there. -/
def ofSettings {α : Type} (capability : String) (settings : Settings α) :
    Except SetupError (Reviewer α) :=
  if settings.id = "" then .error .emptyId
  else match settings.logic with
    | none => .error (.missing capability)
    | some logic =>
      .ok {
        id := settings.id
        logic
        creator := settings.creator.getD (.dynamic (settings.registry.getD .kubernetes))
        logger := settings.logger.getD .silent }

def loggerOf {α : Type} (reviewer : Reviewer α) (kind : WebhookKind) : Logger :=
  reviewer.logger.withValues
    (.ofList [("webhook-id", .string reviewer.id), ("webhook-type", .string kind.text)])

end Reviewer

structure ReviewRun (σ : Type) where
  outcome : Outcome ReviewError Response
  state : State σ

namespace Reviewer

variable {σ : Type}

def mutatingResponse (review : Review) (received mutated : Object) (warnings : List String) :
    Response :=
  let patch := Json.diff received.toJson mutated.toJson
  .mutating review.id (Text.utf8Bytes patch.toJson.render) warnings

def mutate (reviewer : Reviewer (Mutator σ)) (context : Context) (review : Review)
    (state : State σ) : ReviewRun σ :=
  let logger := reviewer.loggerOf .mutating
  let state := logger.report context .debug "webhook mutating review request received" state
  let creation := reviewer.creator.newObject review.rawObject
  let state := state.remarks context creation.remark.toList
  match creation.result with
  | .error error => ⟨.failed (.object error), state⟩
  | .ok object =>
    let ran := reviewer.logic.run context review object state
    match ran.outcome with
    | .failed failure => ⟨.failed (.mutation failure), ran.state⟩
    | .panicked message => ⟨.panicked message, ran.state⟩
    | .done mutation =>
      ⟨.done (mutatingResponse review object (mutation.replacement.getD ran.object)
          mutation.warnings),
        logger.report context .debug "webhook mutating review request mutated" ran.state⟩

def validated (valid : Bool) : String :=
  "webhook validating review request validated, valid: " ++ toString valid

def validate (reviewer : Reviewer (Validator σ)) (context : Context) (review : Review)
    (state : State σ) : ReviewRun σ :=
  let logger := reviewer.loggerOf .validating
  let state := logger.report context .debug "webhook validating review request received" state
  let creation := reviewer.creator.newObject review.rawObject
  let state := state.remarks context creation.remark.toList
  match creation.result with
  | .error error => ⟨.failed (.object error), state⟩
  | .ok object =>
    let ran := reviewer.logic.run context review object state
    match ran.outcome with
    | .failed failure => ⟨.failed (.validation failure), ran.state⟩
    | .panicked message => ⟨.panicked message, ran.state⟩
    | .done validation =>
      ⟨.done (.validating review.id validation.valid validation.message validation.warnings),
        logger.report context .debug (validated validation.valid) ran.state⟩

end Reviewer

inductive Recorder where
  | silent
  | instruments
  | recording

def Recorder.record (recorder : Recorder) (measurement : Measurement) (verdict : Verdict)
    (telemetry : Telemetry) : Telemetry :=
  match recorder with
  | .silent => telemetry
  | .instruments => telemetry.note (.counted measurement verdict)
  | .recording => telemetry.note (.measured measurement verdict)

inductive Webhook (σ : Type) where
  | mutating (reviewer : Reviewer (Mutator σ))
  | validating (reviewer : Reviewer (Validator σ))
  | measured (recorder : Recorder) (webhook : Webhook σ)
  | traced (tracer : Tracer) (webhook : Webhook σ)

namespace Webhook

variable {σ : Type}

def id : Webhook σ → String
  | .mutating reviewer => reviewer.id
  | .validating reviewer => reviewer.id
  | .measured _ webhook | .traced _ webhook => webhook.id

def kind : Webhook σ → WebhookKind
  | .mutating _ => .mutating
  | .validating _ => .validating
  | .measured _ webhook | .traced _ webhook => webhook.kind

/-- The part of the verdict that is measured, false of a review that gave no answer. -/
def verdict (kind : WebhookKind) (outcome : Outcome ReviewError Response) : Verdict :=
  let (mutated, allowed) := match outcome with
    | .done (.mutating _ patch _) => (hasMutated patch, true)
    | .done (.validating _ allowed _ _) => (false, allowed)
    | _ => (false, false)
  match kind with
  | .mutating => .mutated mutated
  | .validating => .allowed allowed

def measurement (webhook : String) (kind : WebhookKind) (review : Review) (milliseconds : Nat)
    (outcome : Outcome ReviewError Response) : Measurement :=
  let warnings? := match outcome with
    | .done response => some response.warnings.length
    | _ => none
  { webhook, kind
    generation := review.generation
    milliseconds
    success := warnings?.isSome
    name := review.name
    objectNamespace := review.objectNamespace
    resourceKind := review.kind.text
    operation := review.operation
    dryRun := review.dryRun
    warnings := warnings?.getD 0 }

def reviewValues (webhook : String) (review : Review) : SortedMap Json :=
  .ofList
    [("webhook_id", .string webhook),
      ("admission_review_version", .string review.generation.text),
      ("admission_review_id", .string review.id),
      ("user_uid", .string (review.user.uid.getD "")),
      ("user_username", .string (review.user.username.getD "")),
      ("user_groups", .string (",".intercalate (review.user.groups.getD []))),
      ("resource_name", .string review.name),
      ("resource_namespace", .string review.objectNamespace),
      ("resource_kind", .string review.kind.text),
      ("operation", .string review.operation.text),
      ("dry_run", .bool review.dryRun)]

def responseValues (response : Response) : SortedMap Json :=
  .ofList
    ([("warnings", .string (",".intercalate response.warnings)),
      ("has_warnings", .bool !response.warnings.isEmpty)]
      ++ match response with
        | .validating _ allowed _ _ =>
          [("webhook_type", .string WebhookKind.validating.text), ("allowed", .bool allowed)]
        | .mutating _ patch _ =>
          [("webhook_type", .string WebhookKind.mutating.text),
            ("mutated", .bool (hasMutated patch))])

def traceError? : Outcome ReviewError Response → Option String
  | .done _ => none
  | .failed error => some error.message
  | .panicked _ => some "webhook review did not finish"

/-- Review a request. A layer says its last word when all within it is done, whether or not the
review came to an answer. -/
def review (webhook : Webhook σ) (context : Context) (request : Review) (state : State σ) :
    ReviewRun σ :=
  match webhook with
  | .mutating reviewer => reviewer.mutate context request state
  | .validating reviewer => reviewer.validate context request state
  | .measured recorder webhook =>
    let ran := webhook.review context request state
    let measurement := measurement webhook.id webhook.kind request
      (ran.state.world.now - state.world.now) ran.outcome
    let telemetry :=
      recorder.record measurement (verdict webhook.kind ran.outcome) ran.state.telemetry
    { ran with state := { ran.state with telemetry } }
  | .traced tracer webhook =>
    let (context, telemetry) :=
      tracer.start context ("webhook.Review/" ++ webhook.id) state.telemetry
    let telemetry := tracer.addValues context (reviewValues webhook.id request) telemetry
    let telemetry := tracer.addEvent context "webhook review started" ∅ telemetry
    let ran := webhook.review context request { state with telemetry }
    let telemetry := match ran.outcome with
      | .done response =>
        tracer.addEvent context "webhook review finished" ∅
          (tracer.addValues context (responseValues response) ran.state.telemetry)
      | _ => ran.state.telemetry
    { ran with
      state := { ran.state with telemetry := tracer.finish context (traceError? ran.outcome) telemetry } }

end Webhook

end Admission
