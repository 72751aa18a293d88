import Mathlib.Logic.ExistsUnique
import Admission.Proofs.Gateway.Handler

/-! Whatever is posted and whatever becomes of the review, a request is answered in one of three
ways. The webhook takes part in one of them only, where it is asked once and its answer, or the
reason why there is none, goes out in the envelope of the request. -/

set_option autoImplicit false

namespace Admission

theorem ReviewRequest.apiVersion_of_generation {wire : ReviewRequest} {generation : Generation}
    (found : wire.generation = .ok generation) : wire.apiVersion = some generation.apiVersion := by
  have named {version : Generation} (eq : wire.apiVersion.getD "" = version.apiVersion) :
      wire.apiVersion = some version.apiVersion := by
    cases given : wire.apiVersion with
    | none =>
      rw [given] at eq
      cases version <;> exact absurd eq (by decide)
    | some text =>
      rw [given] at eq
      exact congrArg some eq
  rw [ReviewRequest.generation] at found
  split at found
  · rename_i v1
    cases found
    exact named v1.2
  · split at found
    · rename_i v1beta1
      cases found
      exact named v1beta1.2
    · cases found

def Review.SentIn (review : Review) (body : Bytes) : Prop :=
  ∃ wire request, ReviewRequest.parse body = .ok wire ∧ wire.request = some request ∧
    wire.apiVersion = some review.generation.apiVersion ∧ request.uid = review.id

theorem Review.sentIn_of_decode {body : Bytes} {review : Review}
    (decoded : decode body = .ok review) : review.SentIn body := by
  obtain ⟨wire, parsed, converted⟩ := parse_of_decode decoded
  rw [ReviewRequest.toReview] at converted
  split at converted
  · cases converted
  · cases converted
  · rename_i generation request found request_eq
    cases converted
    exact ⟨wire, request, parsed, request_eq, ReviewRequest.apiVersion_of_generation found, rfl⟩

namespace Reviewer

variable {σ : Type}

theorem id_of_validate {reviewer : Reviewer (Validator σ)} {context : Context} {review : Review}
    {state : State σ} {response : Response}
    (answered : (reviewer.validate context review state).outcome = .done response) :
    response.id = review.id := by
  simp only [validate] at answered
  split at answered
  · cases answered
  · split at answered
    · cases answered
    · cases answered
    · cases answered
      rfl

theorem id_of_mutate {reviewer : Reviewer (Mutator σ)} {context : Context} {review : Review}
    {state : State σ} {response : Response}
    (answered : (reviewer.mutate context review state).outcome = .done response) :
    response.id = review.id := by
  obtain ⟨object, mutation, -, -, rfl⟩ := mutate_eq_done_iff.1 answered
  rfl

end Reviewer

theorem Webhook.id_of_review {σ : Type} {webhook : Webhook σ} {context : Context}
    {review : Review} {state : State σ} {response : Response}
    (answered : (webhook.review context review state).outcome = .done response) :
    response.id = review.id := by
  induction webhook generalizing context state with
  | mutating reviewer => exact Reviewer.id_of_mutate answered
  | validating reviewer => exact Reviewer.id_of_validate answered
  | measured recorder webhook ih => exact ih answered
  | traced tracer webhook ih => exact ih answered

namespace Handler

variable {σ : Type}

def withWebhook (handler : Handler σ) (webhook : Webhook σ) : Handler σ :=
  { handler with webhook }

/-- Nothing in the world changes, and with any other webhook of that id the request would be served
the same. -/
structure Unasked (handler : Handler σ) (occasion : Occasion) (request : Http.Request)
    (state : State σ) : Prop where
  world : (handler.serve occasion request state).state.world = state.world
  any : ∀ webhook : Webhook σ, webhook.id = handler.webhook.id →
    (handler.withWebhook webhook).serve occasion request state =
      handler.serve occasion request state

inductive NoReview : Bytes → String → Prop where
  | empty : NoReview [] "no body found"
  | undecodable {body : Bytes} {error : DecodeError} (ne : body ≠ [])
    (decoded : Review.decode body = .error error) : NoReview body error.message

def outer? (handler : Handler σ) (request : Http.Request) (state : State σ) : Option SpanId :=
  (handler.tracer.openRequest (spanName handler.webhook) request.method request.path
    state.telemetry).1

def closed (outer? : Option SpanId) (inner : SpanId) (served : Served σ) : Served σ :=
  let state := served.state.note (.spanClosed inner)
  { served with state := outer?.elim state fun span => state.note (.spanClosed span) }

theorem answer_closed (outer? : Option SpanId) (inner : SpanId) (served : Served σ) :
    (closed outer? inner served).answer = served.answer :=
  rfl

theorem world_closed (outer? : Option SpanId) (inner : SpanId) (served : Served σ) :
    (closed outer? inner served).state.world = served.state.world := by
  cases outer? <;> rfl

section

variable {handler : Handler σ} {occasion : Occasion} {request : Http.Request} {state : State σ}

theorem serve_of_fits (posted : request.method = "POST") (path : request.path = "/")
    (fits : request.body.length ≤ maxBodyBytes) :
    handler.serve occasion request state =
      closed (handler.outer? request state) (handler.opened request state).1
        (handler.answerBody occasion request.path request.body (handler.opened request state).1
          (handler.opened request state).2) := by
  simp only [serve, post, opened, outer?, if_neg (not_not_intro path),
    if_neg (not_not_intro posted), if_neg (Nat.not_lt.2 fits)]
  cases (handler.tracer.openRequest (spanName handler.webhook) request.method request.path
    state.telemetry).1 <;> rfl

theorem spanName_eq {webhook other : Webhook σ} (same : webhook.id = other.id) :
    spanName webhook = spanName other :=
  congrArg ("admissionreview.HTTP/" ++ ·) same

theorem opened_withWebhook {webhook : Webhook σ} (same : webhook.id = handler.webhook.id)
    (request : Http.Request) (state : State σ) :
    (handler.withWebhook webhook).outer? request state = handler.outer? request state ∧
      (handler.withWebhook webhook).opened request state = handler.opened request state := by
  have name : spanName webhook = spanName handler.webhook := spanName_eq same
  simp only [outer?, opened, withWebhook, name, and_self]

theorem serve_of_exceeds (posted : request.method = "POST") (path : request.path = "/")
    (exceeds : maxBodyBytes < request.body.length) :
    (∃ response, (handler.serve occasion request state).answer = .ok response ∧
      response.status = 413) ∧ handler.Unasked occasion request state := by
  have served : ∃ response telemetry, response.status = 413 ∧
      handler.serve occasion request state = ⟨.ok response, { state with telemetry }⟩ := by
    simp only [serve, post, if_neg (not_not_intro path), if_neg (not_not_intro posted),
      if_pos exceeds]
    split <;> exact ⟨_, _, rfl, rfl⟩
  obtain ⟨response, telemetry, status, served⟩ := served
  refine ⟨⟨response, ?_, status⟩, ?_, fun webhook same => ?_⟩
  · rw [served]
  · rw [served]
  · have name : spanName webhook = spanName handler.webhook := spanName_eq same
    simp only [serve, post, withWebhook, name, if_neg (not_not_intro path),
      if_neg (not_not_intro posted), if_pos exceeds]

theorem answerBody_of_noReview {path : String} {body : Bytes} {message : String} (span : SpanId)
    (reason : NoReview body message) :
    handler.answerBody occasion path body span state = ⟨.ok (.plain 400 message), state⟩ := by
  cases reason with
  | empty => rfl
  | undecodable ne decoded => rw [answerBody, List.isEmpty_eq_false_iff.2 ne, decoded]; rfl

theorem serve_of_noReview {message : String} (posted : request.method = "POST")
    (path : request.path = "/") (fits : request.body.length ≤ maxBodyBytes)
    (reason : NoReview request.body message) :
    (handler.serve occasion request state).answer = .ok (.plain 400 message) ∧
      handler.Unasked occasion request state := by
  refine ⟨?_, ?_, fun webhook same => ?_⟩
  · rw [serve_of_fits posted path fits, answer_closed, answerBody_of_noReview _ reason]
  · rw [serve_of_fits posted path fits, world_closed, answerBody_of_noReview _ reason]
    rfl
  · obtain ⟨outer, opened⟩ := opened_withWebhook same request state
    rw [serve_of_fits posted path fits, serve_of_fits posted path fits, outer, opened,
      answerBody_of_noReview _ reason, answerBody_of_noReview _ reason]

end

/-- The webhook is asked once, with a signal that no one else has and that has no deadline. What is
served is made of the outcome and the state that it leaves, for any webhook of that id in the same
way. -/
structure AskedOnce (handler : Handler σ) (occasion : Occasion) (request : Http.Request)
    (state : State σ) (review : Review) (context : Context) (begun : State σ) : Prop where
  signal : context.signal = { token := state.world.freshToken.1 }
  world : begun.world = state.world.freshToken.2
  once : ∃ finish : ReviewRun σ → Served σ,
    (∀ ran, (finish ran).state.world = ran.state.world) ∧
    ∀ webhook : Webhook σ, webhook.id = handler.webhook.id →
      (handler.withWebhook webhook).serve occasion request state =
        finish (webhook.review context review begun)

inductive Tells (occasion : Occasion) (answer : Json) :
    Outcome ReviewError Response → Nat → Prop where
  | done (response : Response) : Tells occasion answer (.done response) 200
  | failed {error : ReviewError} (fails : Fails answer error.message) :
    Tells occasion answer (.failed error) 500
  | panicked {message : String}
    (fails : Fails answer ("review task failed: task " ++ occasion.task ++
      " panicked with message " ++ Text.quoted message)) :
    Tells occasion answer (.panicked message) 500

theorem world_conclude (handler : Handler σ) (occasion : Occasion) (context : Context)
    (span : SpanId) (review : Review) (ran : ReviewRun σ) :
    (handler.conclude occasion context span review ran).state.world = ran.state.world := by
  rw [conclude]
  split
  · rfl
  · simp only [Logger.report, State.note]
    split <;> rfl

theorem conclude_answer (handler : Handler σ) (occasion : Occasion) (context : Context)
    (span : SpanId) {review : Review} {ran : ReviewRun σ}
    (named : ∀ response, ran.outcome = .done response → response.id = review.id) :
    ∃ response answer, (handler.conclude occasion context span review ran).answer = .ok response ∧
      response.contentType = some "application/json" ∧
      Json.parse (Text.utf8Bytes response.body) = .ok answer ∧ Envelope answer.json review ∧
      Tells occasion answer.json ran.outcome response.status := by
  have envelope_failure (message : String) : Envelope (Json.Tree.ofJson
      (ReviewResponse.failure review.generation review.id message).toJson).json review :=
    ReviewResponse.envelope_new review rfl
  have fails (message : String) := ReviewResponse.fails_failure review.generation review.id message
  cases ended : ran.outcome with
  | done response =>
    simp only [conclude, ended, failure?]
    refine ⟨_, _, rfl, rfl, ReviewResponse.parse_toJson _, ReviewResponse.envelope_new review ?_,
      .done response⟩
    rw [← named response ended]
    cases response <;> rfl
  | failed error =>
    simp only [conclude, ended, failure?]
    exact ⟨_, _, rfl, rfl, ReviewResponse.parse_toJson _, envelope_failure _, .failed (fails _)⟩
  | panicked message =>
    simp only [conclude, ended, failure?]
    exact ⟨_, _, rfl, rfl, ReviewResponse.parse_toJson _, envelope_failure _, .panicked (fails _)⟩

section

variable {handler : Handler σ} {request : Http.Request} {review : Review}

theorem exists_handover (untimed : handler.timeout = none) (path : String) (review : Review)
    (span : SpanId) (state : State σ) :
    ∃ context begun, handler.handover? path review span state = some (context, begun) ∧
      context.signal = { token := state.world.freshToken.1 } ∧
      begun.world = state.world.freshToken.2 := by
  rw [handover?, untimed]
  exact ⟨_, _, rfl, rfl, rfl⟩

theorem answerBody_of_handover {occasion : Occasion} {path : String} {body : Bytes}
    {span : SpanId} {context : Context} {state begun : State σ}
    (decoded : Review.decode body = .ok review)
    (handed : handler.handover? path review span state = some (context, begun)) :
    handler.answerBody occasion path body span state =
      handler.conclude occasion context span review
        (handler.webhook.review context review begun) := by
  rw [handover?] at handed
  rw [answerBody, not_empty_of_decode decoded, decoded]
  cases timeout : handler.timeout with
  | none =>
    rw [timeout] at handed
    cases handed
    rfl
  | some seconds =>
    simp only [timeout] at handed
    simp only [Bool.false_eq_true, ↓reduceIte]
    generalize Context.withTimeout? _ _ seconds = context? at handed ⊢
    cases context? with
    | none => cases handed
    | some context => cases handed; rfl

theorem serve_of_decode (occasion : Occasion) (state : State σ)
    (posted : request.method = "POST") (path : request.path = "/")
    (fits : request.body.length ≤ maxBodyBytes) (untimed : handler.timeout = none)
    (decoded : Review.decode request.body = .ok review) :
    ∃ context begun response answer,
      handler.AskedOnce occasion request state review context begun ∧
      (handler.serve occasion request state).answer = .ok response ∧
      response.contentType = some "application/json" ∧
      Json.parse (Text.utf8Bytes response.body) = .ok answer ∧ Envelope answer.json review ∧
      Tells occasion answer.json (handler.webhook.review context review begun).outcome
        response.status := by
  obtain ⟨context, begun, handed, signal, world⟩ := exists_handover untimed request.path review
    (handler.opened request state).1 (handler.opened request state).2
  let finish (ran : ReviewRun σ) : Served σ :=
    closed (handler.outer? request state) (handler.opened request state).1
      (handler.conclude occasion context (handler.opened request state).1 review ran)
  -- any webhook of the id is handed the review in the same way
  have served (webhook : Webhook σ) (same : webhook.id = handler.webhook.id) :
      (handler.withWebhook webhook).serve occasion request state =
        finish (webhook.review context review begun) := by
    obtain ⟨outer, opened⟩ := opened_withWebhook same request state
    rw [serve_of_fits posted path fits, outer, opened]
    exact congrArg _ (answerBody_of_handover decoded handed)
  obtain ⟨response, answer, answered, told⟩ := conclude_answer handler occasion context
    (handler.opened request state).1 fun response => Webhook.id_of_review
  refine ⟨context, begun, response, answer, ⟨signal, world, finish, ?_, served⟩, ?_, told⟩
  · intro ran
    rw [world_closed, world_conclude]
  · have own : handler.serve occasion request state = _ := served handler.webhook rfl
    rw [own, answer_closed, answered]

end

/-! ## Every request -/

/-- How a request that is posted can end. -/
inductive Ending where
  | tooLarge
  | noReview
  | reviewed

inductive Ends (handler : Handler σ) (occasion : Occasion) (request : Http.Request)
    (state : State σ) : Ending → Prop where
  | tooLarge (exceeds : 6 * 1024 * 1024 < request.body.length) {response : Http.Response}
    (answered : (handler.serve occasion request state).answer = .ok response)
    (status : response.status = 413) (unasked : handler.Unasked occasion request state) :
    Ends handler occasion request state .tooLarge
  | noReview (fits : request.body.length ≤ 6 * 1024 * 1024) {message : String}
    (reason : NoReview request.body message)
    (answered : (handler.serve occasion request state).answer =
      .ok { status := 400, contentType := some "text/plain; charset=utf-8", body := message })
    (unasked : handler.Unasked occasion request state) :
    Ends handler occasion request state .noReview
  | reviewed (fits : request.body.length ≤ 6 * 1024 * 1024) {review : Review}
    (decoded : Review.decode request.body = .ok review) (sent : review.SentIn request.body)
    {context : Context} {begun : State σ}
    (asked : handler.AskedOnce occasion request state review context begun)
    {response : Http.Response} {answer : Json.Tree}
    (answered : (handler.serve occasion request state).answer = .ok response)
    (type : response.contentType = some "application/json")
    (parsed : Json.parse (Text.utf8Bytes response.body) = .ok answer)
    (envelope : Envelope answer.json review)
    (tells : Tells occasion answer.json
      (handler.webhook.review context review begun).outcome response.status) :
    Ends handler occasion request state .reviewed

section

variable {handler : Handler σ} {occasion : Occasion} {request : Http.Request} {state : State σ}

theorem NoReview.not_decoded {body : Bytes} {message : String} (reason : NoReview body message)
    {review : Review} (decoded : Review.decode body = .ok review) : False := by
  cases reason with
  | empty => cases decoded
  | undecodable ne error => cases error.symm.trans decoded

theorem Ends.unique {first second : Ending} (one : handler.Ends occasion request state first)
    (other : handler.Ends occasion request state second) : first = second := by
  cases one with
  | tooLarge exceeds =>
    cases other with
    | tooLarge => rfl
    | noReview fits => exact absurd exceeds (Nat.not_lt.2 fits)
    | reviewed fits => exact absurd exceeds (Nat.not_lt.2 fits)
  | noReview fits reason =>
    cases other with
    | tooLarge exceeds => exact absurd exceeds (Nat.not_lt.2 fits)
    | noReview => rfl
    | reviewed _ decoded => exact (reason.not_decoded decoded).elim
  | reviewed fits decoded =>
    cases other with
    | tooLarge exceeds => exact absurd exceeds (Nat.not_lt.2 fits)
    | noReview _ reason => exact (reason.not_decoded decoded).elim
    | reviewed => rfl

/-- Whatever body is posted, and whether the webhook answers, fails or panics, the request ends in
just one way: it is too large or holds no review, and the webhook is not asked, or the webhook is
asked once and the answer tells what came of it. -/
theorem serve_ends (posted : request.method = "POST") (path : request.path = "/")
    (untimed : handler.timeout = none) :
    ∃! ending, handler.Ends occasion request state ending := by
  suffices ends : ∃ ending, handler.Ends occasion request state ending by
    obtain ⟨ending, ends⟩ := ends
    exact ⟨ending, ends, fun other also => also.unique ends⟩
  by_cases exceeds : maxBodyBytes < request.body.length
  · obtain ⟨⟨response, answered, status⟩, unasked⟩ := serve_of_exceeds posted path exceeds
    exact ⟨_, .tooLarge exceeds answered status unasked⟩
  · have fits : request.body.length ≤ maxBodyBytes := Nat.not_lt.1 exceeds
    have refused {message : String} (reason : NoReview request.body message) :
        ∃ ending, handler.Ends occasion request state ending := by
      obtain ⟨answered, unasked⟩ := serve_of_noReview posted path fits reason
      exact ⟨_, .noReview fits reason answered unasked⟩
    by_cases empty : request.body = []
    · have noBody : NoReview request.body "no body found" := by
        rw [empty]
        exact .empty
      exact refused noBody
    · cases decoded : Review.decode request.body with
      | error error => exact refused (.undecodable empty decoded)
      | ok review =>
        obtain ⟨context, begun, response, answer, asked, answered, type, parsed, envelope, tells⟩ :=
          serve_of_decode occasion state posted path fits untimed decoded
        exact ⟨_, .reviewed fits decoded (Review.sentIn_of_decode decoded) asked answered type parsed
          envelope tells⟩

end

/-- The handler of a webhook that breaks off after it named an object. -/
def breaking : Handler Unit where
  webhook := .measured .recording <| .mutating
    { Reviewer.naming with
      logic := .leaf fun _ _ object world => ⟨.panicked "no luck", object.setName "b", world, []⟩ }
  logger := .silent
  tracer := .silent
  timeout := none

theorem created_nameless :
    (Reviewer.naming.creator.newObject (rawBytes (some (.object [("spec", .null)])))).result =
      .ok (.unstructured (.object [("spec", .null)])) := by
  have canonical : (Json.object [("spec", .null)]).Canonical :=
    .object (by simp [Entries.Sorted, Entries.keys]) (by simp [Json.Canonical.null])
  have declines : Registry.empty.Declines (.object [("spec", .null)]) := by
    intro name kind named
    cases named
  exact Creator.newObject_rawBytes canonical rfl (by decide) rfl declines

set_option maxRecDepth 8000 in
theorem breaking_panics : ∃ review, Review.decode namelessRequest.body = .ok review ∧
    ∀ context begun, (breaking.webhook.review context review begun).outcome =
      .panicked "no luck" := by
  obtain ⟨review, decoded, raw⟩ : ∃ review, Review.decode namelessRequest.body = .ok review ∧
      review.rawObject = rawBytes (some (.object [("spec", .null)])) := ⟨_, rfl, rfl⟩
  refine ⟨review, decoded, fun context begun => ?_⟩
  simp only [breaking, Webhook.review, Reviewer.mutate, raw, created_nameless, Mutator.run]

/-- Nothing of what was done is told. -/
theorem breaking_serve_ends : ∃ response answer,
    (breaking.serve ⟨"1", "1ms"⟩ namelessRequest ⟨⟨0, 1, [], ()⟩, {}⟩).answer = .ok response ∧
    response.status = 500 ∧ Json.parse (Text.utf8Bytes response.body) = .ok answer ∧
    Fails answer.json ("review task failed: task 1 panicked with message " ++
      Text.quoted "no luck") := by
  obtain ⟨ending, ends, -⟩ := @serve_ends Unit breaking ⟨"1", "1ms"⟩ namelessRequest
    ⟨⟨0, 1, [], ()⟩, {}⟩ rfl rfl rfl
  obtain ⟨review, decoded, panics⟩ := breaking_panics
  cases ends with
  | tooLarge exceeds => exact absurd exceeds (by decide +kernel)
  | noReview _ reason => exact (reason.not_decoded decoded).elim
  | @reviewed _ _ found _ _ _ _ response _ answered _ parsed _ tells =>
    cases decoded.symm.trans found
    rw [panics] at tells
    generalize status : response.status = code at tells
    cases tells with
    | panicked fails => exact ⟨_, _, answered, status, parsed, fails⟩

end Handler

end Admission
