import Admission.Proofs.Gateway.Agreement
import Admission.Proofs.Webhook.Generations

/-! One review that is posted in both generations. Where the webhook does not read the generation,
the answers are the same but for the version and the warnings. -/

set_option autoImplicit false

namespace Admission.Handler

variable {σ : Type}

def brokenOff (occasion : Occasion) (message : String) : String :=
  "review task failed: task " ++ occasion.task ++ " panicked with message " ++ Text.quoted message

/-- Two answers to a review with that outcome. They have one status, by which the review is completed
or not, and say the same but for the version and the warnings, which are those of the webhook in the
newer one. An answer that tells of a panic has the number of the task in it, which is another one for
another request. -/
inductive SameAnswers (occasion other : Occasion) (outcome : Outcome ReviewError Response)
    (first second : Except String Http.Response) : Prop where
  | intro {status : Nat} {newer older : String} {answer otherAnswer : Json.Tree}
    (newer_answer : first = .ok (.json status newer))
    (older_answer : second = .ok (.json status older))
    (completed : status = 200 ↔ ∃ response, outcome = .done response)
    (newer_parsed : Json.parse (Text.utf8Bytes newer) = .ok answer)
    (older_parsed : Json.parse (Text.utf8Bytes older) = .ok otherAnswer)
    (same : ((∃ message, outcome = .panicked message) → occasion.task = other.task) →
      SameDecision answer.json otherAnswer.json)
    (panicked : ∀ message, outcome = .panicked message →
      Fails answer.json (brokenOff occasion message) ∧
        Fails otherAnswer.json (brokenOff other message))
    (warnings : ∀ response, outcome = .done response →
      answer.json.at? ["response", "warnings"] =
        if response.warnings = [] then none else some (Wire.strings response.warnings)) :
    SameAnswers occasion other outcome first second

/-- What is served to one review in the newer and in the older generation: neither body is decoded,
or the deadline lies beyond the clock for both, or both are answered the same. -/
inductive ServedAlike (handler : Handler σ) (newer older : Http.Request)
    (occasion other : Occasion) (state : State σ) (first second : Served σ) : Prop where
  | undecodable {newerError olderError : DecodeError}
    (newer_fails : Review.decode newer.body = .error newerError)
    (older_fails : Review.decode older.body = .error olderError) {message otherMessage : String}
    (first_answer : first.answer = .ok (.plain 400 message))
    (second_answer : second.answer = .ok (.plain 400 otherMessage)) :
    ServedAlike handler newer older occasion other state first second
  | overflow {review : Review}
    (newer_decoded : Review.decode newer.body = .ok (review.inGeneration .v1))
    (older_decoded : Review.decode older.body = .ok (review.inGeneration .v1beta1))
    (overflows : handler.reviewed? newer (review.inGeneration .v1) state = none)
    (first_answer : first.answer = .error Instant.overflow)
    (second_answer : second.answer = .error Instant.overflow) :
    ServedAlike handler newer older occasion other state first second
  | answered {review : Review}
    (newer_decoded : Review.decode newer.body = .ok (review.inGeneration .v1))
    (older_decoded : Review.decode older.body = .ok (review.inGeneration .v1beta1))
    {context : Context} {begun : State σ}
    (reviewed : handler.reviewed? newer (review.inGeneration .v1) state = some (context, begun))
    (same : SameAnswers occasion other
      (handler.webhook.review context (review.inGeneration .v1) begun).outcome first.answer
      second.answer) :
    ServedAlike handler newer older occasion other state first second

def signal? (handler : Handler σ) (world : World σ) : Option Signal :=
  match handler.timeout with
  | none => some ⟨world.tokens, none⟩
  | some seconds =>
    (Instant.after? world.now seconds).map fun deadline => ⟨world.tokens, some deadline⟩

def handed (handler : Handler σ) (request : Http.Request) (review : Review) (signal : Signal)
    (state : State σ) : Context :=
  let span := (handler.opened request state).1
  ({ signal, scope := some span, trace := some span } : Context).withValues
    (values request.path (handler.tracer.requestTraceId state.telemetry.traceId) review)

def begun (handler : Handler σ) (request : Http.Request) (review : Review) (state : State σ) :
    State σ :=
  let (span, opened) := handler.opened request state
  { world := state.world.freshToken.2
    telemetry := opened.telemetry.note (.spanRecorded span (reviewFields review)) }

theorem traceId_opened (handler : Handler σ) (request : Http.Request) (state : State σ) :
    (handler.opened request state).2.telemetry.traceId = state.telemetry.traceId := by
  rw [opened]
  cases handler.tracer <;> rfl

theorem spans_opened (handler : Handler σ) (newer older : Http.Request) {one two : State σ}
    (spans : one.telemetry.spans = two.telemetry.spans) :
    (handler.opened newer one).1 = (handler.opened older two).1 ∧
      (handler.opened newer one).2.telemetry.spans = (handler.opened older two).2.telemetry.spans := by
  simp only [opened]
  cases handler.tracer with
  | silent => exact ⟨spans, congrArg Nat.succ spans⟩
  | recording values => exact ⟨spans, congrArg Nat.succ spans⟩
  | spans values => exact ⟨congrArg Nat.succ spans, congrArg (· + 2) spans⟩

/-- Only the values tell the webhook in which generation a review came. -/
theorem reviewed_generation (handler : Handler σ) (request : Http.Request) (review : Review)
    (generation : Generation) (state : State σ) :
    handler.reviewed? request (review.inGeneration generation) state =
      (handler.signal? state.world).map fun signal =>
        ((handler.handed request review signal state).inGeneration generation,
          handler.begun request (review.inGeneration generation) state) := by
  have told (signal : Signal) (telemetry : Telemetry)
      (same : telemetry.traceId = state.telemetry.traceId) :
      let span := (handler.opened request state).1
      let context : Context := { signal, scope := some span, trace := some span }
      context.withValues (values request.path (handler.tracer.traceId context telemetry)
        (review.inGeneration generation)) =
        (handler.handed request review signal state).inGeneration generation := by
    intro span context
    rw [handler.tracer.traceId_of_trace rfl, same, Context.withValues_inGeneration]
    rfl
  have traceId := handler.traceId_opened request state
  rw [reviewed?, handover?, signal?]
  cases handler.timeout with
  | none => exact congrArg (fun context => some (context, _)) (told _ _ traceId)
  | some seconds =>
    show ((Instant.after? state.world.now seconds).map _).map _ =
      ((Instant.after? state.world.now seconds).map _).map _
    cases Instant.after? state.world.now seconds with
    | none => rfl
    | some deadline => exact congrArg (fun context => some (context, _)) (told _ _ traceId)

/-- In either generation the same comes of a review whose generation is not read, if logic that reads
spans finds them numbered alike, and logic that reads the id of the trace finds the same one. -/
theorem result_generations {handler : Handler σ} (blind : handler.webhook.Blind)
    {newer older : Http.Request} (path : newer.path = older.path) {one two : State σ}
    (world : one.world = two.world)
    (alike : one.telemetry.spans = two.telemetry.spans ∧
        one.telemetry.traceId = two.telemetry.traceId ∨
      handler.ReadsAlike handler one.telemetry.traceId two.telemetry.traceId)
    (review : Review) (signal : Signal) :
    (handler.webhook.review ((handler.handed newer review signal one).inGeneration .v1)
        (review.inGeneration .v1) (handler.begun newer (review.inGeneration .v1) one)).result =
      (handler.webhook.review ((handler.handed older review signal two).inGeneration .v1beta1)
        (review.inGeneration .v1beta1)
        (handler.begun older (review.inGeneration .v1beta1) two)).result := by
  have begun_world : (handler.begun newer (review.inGeneration .v1) one).world =
      (handler.begun older (review.inGeneration .v1beta1) two).world :=
    congrArg (fun world => world.freshToken.2) world
  have signals : (handler.handed newer review signal one).signal =
      (handler.handed older review signal two).signal := rfl
  -- either the two contexts are one but for the generation, or the leaves do not see how they differ
  rcases alike with ⟨spans, traceId⟩ | reads | ⟨reads, traceId⟩
  · obtain ⟨span, opened_spans⟩ := handler.spans_opened newer older spans
    have same : handler.handed newer review signal one = handler.handed older review signal two := by
      rw [handed, handed, span, path, traceId]
    rw [same]
    exact blind.result_eq _ review .v1 .v1beta1 begun_world opened_spans
  · refine blind.result_of_reads reads handler.webhook.untraced_logicContext signals
      (fun generation => ?_) review .v1 .v1beta1 begun_world
    rw [handed, handed, path, ← Context.withValues_inGeneration, ← Context.withValues_inGeneration]
    exact Context.untraced_withValues rfl rfl _ _ _ _
  · refine blind.result_of_reads reads handler.webhook.plain_logicContext signals
      (fun generation => ?_) review .v1 .v1beta1 begun_world
    rw [handed, handed, path, traceId]
    rfl

theorem conclude_generations (handler : Handler σ) (occasion other : Occasion)
    (context otherContext : Context) (span otherSpan : SpanId) (review : Review)
    {ran otherRan : ReviewRun σ} (same : ran.outcome = otherRan.outcome) :
    SameAnswers occasion other ran.outcome
      (handler.conclude occasion context span (review.inGeneration .v1) ran).answer
      (handler.conclude other otherContext otherSpan (review.inGeneration .v1beta1)
        otherRan).answer := by
  have parsed := ReviewResponse.parse_toJson
  rw [same]
  cases ended : otherRan.outcome with
  | done response =>
    simp only [conclude, same, ended, failure?]
    refine .intro rfl rfl (iff_of_true rfl ⟨response, rfl⟩) (parsed _) (parsed _)
      (fun _ => ReviewResponse.sameDecision_new (.ofResponse response)) (by simp) fun other done => ?_
    cases done
    exact ReviewResponse.at?_warnings_encode response
  | failed error =>
    simp only [conclude, same, ended, failure?]
    exact .intro rfl rfl (iff_of_false (by decide) (by simp)) (parsed _) (parsed _)
      (fun _ => ReviewResponse.sameDecision_new _) (by simp) (by simp)
  | panicked message =>
    simp only [conclude, same, ended, failure?]
    refine .intro rfl rfl (iff_of_false (by decide) (by simp)) (parsed _) (parsed _)
      (fun numbered => ?_) (fun other told => ?_) (by simp)
    · rw [numbered ⟨message, rfl⟩]
      exact ReviewResponse.sameDecision_new _
    · cases told
      exact ⟨ReviewResponse.fails_failure .., ReviewResponse.fails_failure ..⟩

theorem exists_noReview {body : Bytes} {error : DecodeError}
    (decoded : Review.decode body = .error error) : ∃ message, NoReview body message := by
  cases body with
  | nil => exact ⟨_, .empty⟩
  | cons byte body => exact ⟨_, .undecodable (List.cons_ne_nil byte body) decoded⟩

/-- The two generations get one answer. Two bodies that are the same review but for the version are
both decoded or none is, and if they are, the answers have the same status and say the same but for
the version and the warnings, whether the webhook responds, fails or panics. The bodies come into the
same world, and if the logic reads spans or the id of the trace, these are the same for both. -/
theorem generations_served_alike {handler : Handler σ} (blind : handler.webhook.Blind)
    (occasion other : Occasion) {newer older : Http.Request} (newer_posted : newer.method = "POST")
    (older_posted : older.method = "POST") (newer_path : newer.path = "/")
    (older_path : older.path = "/") (newer_fits : newer.body.length ≤ maxBodyBytes)
    (older_fits : older.body.length ≤ maxBodyBytes)
    (counterparts : Counterparts newer.body older.body) {one two : State σ}
    (world : one.world = two.world)
    (alike : one.telemetry.spans = two.telemetry.spans ∧
        one.telemetry.traceId = two.telemetry.traceId ∨
      handler.ReadsAlike handler one.telemetry.traceId two.telemetry.traceId) :
    handler.ServedAlike newer older occasion other one (handler.serve occasion newer one)
      (handler.serve other older two) := by
  rcases Review.decode_counterparts counterparts with
    ⟨error, otherError, newer_fails, older_fails⟩ | ⟨review, newer_decoded, older_decoded⟩
  · obtain ⟨first, noReview⟩ := exists_noReview newer_fails
    obtain ⟨second, noOther⟩ := exists_noReview older_fails
    exact .undecodable newer_fails older_fails
      (serve_of_noReview newer_posted newer_path newer_fits noReview).1
      (serve_of_noReview older_posted older_path older_fits noOther).1
  have newer_reviewed := handler.reviewed_generation newer review .v1 one
  have older_reviewed := handler.reviewed_generation older review .v1beta1 two
  rw [world] at newer_reviewed
  -- the deadline is counted from one clock, so that it lies beyond it for both or for none
  cases signaled : handler.signal? two.world with
  | none =>
    rw [signaled] at newer_reviewed older_reviewed
    exact .overflow newer_decoded older_decoded newer_reviewed
      (serve_of_overflow newer_posted newer_path newer_fits newer_decoded newer_reviewed).1
      (serve_of_overflow older_posted older_path older_fits older_decoded older_reviewed).1
  | some signal =>
    rw [signaled] at newer_reviewed older_reviewed
    refine .answered newer_decoded older_decoded newer_reviewed ?_
    rw [serve_of_reviewed occasion newer_posted newer_path newer_fits newer_decoded newer_reviewed,
      serve_of_reviewed other older_posted older_path older_fits older_decoded older_reviewed,
      answer_closed, answer_closed]
    have same := result_generations blind (newer_path.trans older_path.symm) world alike review signal
    exact handler.conclude_generations occasion other _ _ _ _ review (congrArg Prod.fst same)

def versionedRequest (version : String) : Http.Request where
  method := "POST"
  target := "/"
  body := Text.utf8Bytes
    ("\x7b\"kind\":\"AdmissionReview\",\"apiVersion\":\"" ++ version ++ "\",\"request\":" ++
      "\x7b\"operation\":\"CREATE\",\"object\":\x7b\"spec\":null\x7d\x7d\x7d")

def warning : Handler Unit where
  webhook := .measured .recording <| .traced (.recording ∅) <| .mutating
    { Reviewer.naming with
      logic := .leaf fun _ _ object world =>
        { outcome := .done { warnings := ["renamed"] }, object := object.setName "b", world } }
  logger := .silent
  tracer := .silent
  timeout := none

theorem warning_blind : warning.webhook.Blind :=
  .leaf fun _ _ _ _ _ _ => rfl

def versionedDraft : Draft :=
  .object [(⟨.ok "kind", 0, 0⟩, .scalar (.string (.ok "AdmissionReview")) 0 0)]
    [(⟨.ok "request", 0, 0⟩, .object 0
      [(⟨.ok "operation", 0, 0⟩, .scalar (.string (.ok "CREATE")) 0 0),
        (⟨.ok "object", 0, 0⟩, .object 0 [(⟨.ok "spec", 0, 0⟩, .scalar .null 0 0)] (.closed 0))]
      (.closed 0))]
    (.closed 0)

set_option maxRecDepth 8000 in
theorem versionedRequest_counterparts :
    Counterparts (versionedRequest "admission.k8s.io/v1").body
      (versionedRequest "admission.k8s.io/v1beta1").body where
  roots := ⟨versionedDraft, rfl, rfl⟩
  trailing := by decide +kernel

set_option maxRecDepth 8000 in
theorem warning_warns : ∃ review,
    Review.decode (versionedRequest "admission.k8s.io/v1").body = .ok review ∧
    ∀ context begun, ∃ response,
      (warning.webhook.review context review begun).outcome = .done response ∧
        response.warnings = ["renamed"] := by
  obtain ⟨review, decoded, raw⟩ : ∃ review,
      Review.decode (versionedRequest "admission.k8s.io/v1").body = .ok review ∧
        review.rawObject = rawBytes (some (.object [("spec", .null)])) := ⟨_, rfl, rfl⟩
  refine ⟨review, decoded, fun context begun => ?_⟩
  simp only [warning, Webhook.review, Reviewer.mutate, raw, created_nameless, Mutator.run]
  exact ⟨_, rfl, rfl⟩

/-- Both answers have status 200, and only the newer one has the warning. -/
theorem warning_served_alike : ∃ newer older answer other,
    (warning.serve ⟨"1", "1ms"⟩ (versionedRequest "admission.k8s.io/v1")
      ⟨⟨0, 1, [], ()⟩, {}⟩).answer = .ok (.json 200 newer) ∧
    (warning.serve ⟨"2", "2ms"⟩ (versionedRequest "admission.k8s.io/v1beta1")
      ⟨⟨0, 1, [], ()⟩, {}⟩).answer = .ok (.json 200 older) ∧
    Json.parse (Text.utf8Bytes newer) = .ok answer ∧
    Json.parse (Text.utf8Bytes older) = .ok other ∧ SameDecision answer.json other.json ∧
    answer.json.at? ["response", "warnings"] = some (Wire.strings ["renamed"]) := by
  have served := @generations_served_alike Unit warning warning_blind ⟨"1", "1ms"⟩ ⟨"2", "2ms"⟩
    (versionedRequest "admission.k8s.io/v1") (versionedRequest "admission.k8s.io/v1beta1") rfl rfl
    rfl rfl (by decide +kernel) (by decide +kernel) versionedRequest_counterparts
    ⟨⟨0, 1, [], ()⟩, {}⟩ ⟨⟨0, 1, [], ()⟩, {}⟩ rfl (.inl ⟨rfl, rfl⟩)
  obtain ⟨review, decoded, warns⟩ := warning_warns
  cases served with
  | undecodable fails => cases decoded.symm.trans fails
  | overflow _ _ overflows => cases overflows
  | answered newer_decoded _ _ same =>
    cases decoded.symm.trans newer_decoded
    obtain ⟨response, done, warnings⟩ := warns _ _
    rw [done] at same
    obtain ⟨newer_answer, older_answer, completed, newer_parsed, older_parsed, decision, -, warned⟩ :=
      same
    obtain rfl := completed.2 ⟨response, rfl⟩
    refine ⟨_, _, _, _, newer_answer, older_answer, newer_parsed, older_parsed,
      decision (by simp), ?_⟩
    rw [warned response rfl, warnings]
    rfl

end Admission.Handler
