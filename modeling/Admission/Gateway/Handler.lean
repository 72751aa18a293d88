import Admission.Gateway.Http
import Admission.Review.Wire
import Admission.Text.Quoted
import Admission.Webhook.Basic

/-! The handler of a webhook: it decodes the review that a request holds, has the webhook review it
and encodes the answer in the generation of the request. -/

set_option autoImplicit false

namespace Admission

structure Handler (σ : Type) where
  webhook : Webhook σ
  logger : Logger
  tracer : Tracer
  /-- Seconds that a review may take. -/
  timeout : Option Nat

/-- What is known only while a request is served, as it stands in texts: the number of the task
that reviews it, and how long that took. -/
structure Occasion where
  task : String
  duration : String

/-- What serving a request leads to. A handler that breaks off gives the message of its panic in
place of an answer. -/
structure Served (σ : Type) where
  answer : Except String Http.Response
  state : State σ

/-- An object may have 3 MiB, and a review holds two of them and some more. -/
def maxBodyBytes : Nat :=
  6 * 1024 * 1024

namespace Handler

variable {σ : Type}

def identity (webhook : Webhook σ) : SortedMap Json :=
  .ofList
    [("svc", .string "http.Handler"), ("webhook-id", .string webhook.id),
      ("webhook-kind", .string webhook.kind.text)]

def spanName (webhook : Webhook σ) : String :=
  "admissionreview.HTTP/" ++ webhook.id

def build (webhook : Option (Webhook σ)) (logger : Option Logger) (tracer : Option Tracer)
    (timeout : Option Nat) (telemetry : Telemetry) : Except SetupError (Handler σ × Telemetry) :=
  match webhook with
  | none => .error (.missing "webhook")
  | some webhook =>
    let values := identity webhook
    let tracer := (tracer.getD .silent).withValues values
    .ok ({ webhook, tracer, timeout, logger := (logger.getD .silent).withValues values },
      tracer.announce (spanName webhook) telemetry)

def values (path traceId : String) (review : Review) : SortedMap Json :=
  .ofList
    [("request-id", .string review.id),
      ("op", .string review.operation.text),
      ("wh-version", .string review.generation.text),
      ("dry-run", .bool review.dryRun),
      ("kind", .string review.kind.text),
      ("ns", .string review.objectNamespace),
      ("name", .string review.name),
      ("path", .string path),
      ("trace-id", .string traceId)]

def reviewFields (review : Review) : Fields :=
  [("request_uid", .string review.id), ("operation", .string review.operation.text),
    ("kind", .string review.kind.text), ("namespace", .string review.objectNamespace),
    ("name", .string review.name), ("dry_run", .bool review.dryRun)]

def responseField : Response → Fields
  | .validating _ allowed _ _ => [("allowed", .bool allowed)]
  | .mutating _ patch _ => [("mutated", .bool (hasMutated patch))]

def failure? (occasion : Occasion) : Outcome ReviewError Response → Except String Response
  | .done response => .ok response
  | .failed error => .error error.message
  | .panicked message =>
    .error ("review task failed: task " ++ occasion.task ++ " panicked with message "
      ++ Text.quoted message)

def ignoredWarnings (generation : Generation) : String :=
  "warnings used in a webhook response but the admission review version \x27"
    ++ generation.text ++ "\x27 doesn\x27t support them, ignoring them"

def conclude (handler : Handler σ) (occasion : Occasion) (context : Context) (span : SpanId)
    (review : Review) (ran : ReviewRun σ) : Served σ :=
  match failure? occasion ran.outcome with
  | .error message =>
    ⟨.ok (.json 500 (ReviewResponse.failure review.generation review.id message).toJson.render),
      handler.logger.report context .error
        ("could not review the admission request: " ++ message) ran.state⟩
  | .ok response =>
    let state :=
      if !review.generation.supportsWarnings && !response.warnings.isEmpty then
        handler.logger.report context .warning (ignoredWarnings review.generation) ran.state
      else ran.state
    let state := state.note (.spanRecorded span (responseField response))
    ⟨.ok (.json 200 (ReviewResponse.encode review.generation response).toJson.render),
      handler.logger.report context .info
        ("admission review request handled, duration: " ++ occasion.duration) state⟩

/-- Answer a body within a span. A body without a review gets its answer before there is anything to
review, and a deadline beyond the clock breaks off. -/
def answerBody (handler : Handler σ) (occasion : Occasion) (path : String) (body : Bytes)
    (span : SpanId) (state : State σ) : Served σ :=
  if body.isEmpty then ⟨.ok (.plain 400 "no body found"), state⟩
  else match Review.decode body with
    | .error error => ⟨.ok (.plain 400 error.message), state⟩
    | .ok review =>
      let state := state.note (.spanRecorded span (reviewFields review))
      let (token, world) := state.world.freshToken
      let state := { state with world }
      let context : Context := { signal := { token }, scope := some span, trace := some span }
      let context? := match handler.timeout with
        | none => some context
        | some seconds => context.withTimeout? world.now seconds
      match context? with
      | none => ⟨.error Instant.overflow, state⟩
      | some context =>
        let traceId := handler.tracer.traceId context state.telemetry
        let context := context.withValues (values path traceId review)
        handler.conclude occasion context span review
          (handler.webhook.review context review state)

def within (span : SpanId) (work : State σ → Served σ) (state : State σ) : Served σ :=
  let served := work state
  { served with state := served.state.note (.spanClosed span) }

def post (handler : Handler σ) (occasion : Occasion) (request : Http.Request)
    (parent : Option SpanId) (state : State σ) : Served σ :=
  if maxBodyBytes < request.body.length then
    ⟨.ok (.plain 413 "Failed to buffer the request body: length limit exceeded"), state⟩
  else
    let (span, telemetry) := state.telemetry.openSpan "admission_review" parent []
    within span (handler.answerBody occasion request.path request.body span) { state with telemetry }

/-- Answer a request. There is one place, where reviews are posted. -/
def serve (handler : Handler σ) (occasion : Occasion) (request : Http.Request) (state : State σ) :
    Served σ :=
  let route (parent : Option SpanId) (state : State σ) : Served σ :=
    if request.path ≠ "/" then ⟨.ok .notFound, state⟩
    else if request.method ≠ "POST" then ⟨.ok (.notAllowed "POST"), state⟩
    else handler.post occasion request parent state
  let (span?, telemetry) := handler.tracer.openRequest (spanName handler.webhook) request.method
    request.path state.telemetry
  let state := { state with telemetry }
  match span? with
  | none => route none state
  | some span => within span (route (some span)) state

end Handler

end Admission
