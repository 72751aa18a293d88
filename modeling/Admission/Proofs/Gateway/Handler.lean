import Admission.Gateway.Handler
import Admission.Proofs.Object.Creation
import Admission.Proofs.Review.Answer
import Admission.Proofs.Review.Received

/-! What the handler of a mutating webhook answers to a review that is posted, from the body of the
request to the patch in the body of the answer. -/

set_option autoImplicit false

namespace Admission.Handler

variable {σ : Type}

/-- The span in which the body of a request is answered, and the state in which that begins. -/
def opened (handler : Handler σ) (request : Http.Request) (state : State σ) : SpanId × State σ :=
  let (span?, telemetry) := handler.tracer.openRequest (spanName handler.webhook) request.method
    request.path state.telemetry
  let (span, telemetry) := telemetry.openSpan "admission_review" span? []
  (span, { state with telemetry })

/-- The context and the state in which a webhook is given a review, unless the deadline lies beyond
the clock. -/
def handover? (handler : Handler σ) (path : String) (review : Review) (span : SpanId)
    (state : State σ) : Option (Context × State σ) :=
  let state := state.note (.spanRecorded span (reviewFields review))
  let (token, world) := state.world.freshToken
  let state := { state with world }
  let context : Context := { signal := { token }, scope := some span, trace := some span }
  let context? := match handler.timeout with
    | none => some context
    | some seconds => context.withTimeout? world.now seconds
  context?.map fun context =>
    (context.withValues (values path (handler.tracer.traceId context state.telemetry) review), state)

def reviewed? (handler : Handler σ) (request : Http.Request) (review : Review) (state : State σ) :
    Option (Context × State σ) :=
  let opening := handler.opened request state
  handler.handover? request.path review opening.1 opening.2

theorem serve_posted {handler : Handler σ} {occasion : Occasion} {request : Http.Request}
    {state : State σ} (posted : request.method = "POST") (path : request.path = "/")
    (fits : request.body.length ≤ maxBodyBytes) :
    (handler.serve occasion request state).answer =
      (handler.answerBody occasion request.path request.body (handler.opened request state).1
        (handler.opened request state).2).answer := by
  have post (parent : Option SpanId) (state : State σ) :
      (if request.path ≠ "/" then ⟨.ok .notFound, state⟩
      else if request.method ≠ "POST" then ⟨.ok (.notAllowed "POST"), state⟩
      else handler.post occasion request parent state : Served σ) =
        within (state.telemetry.openSpan "admission_review" parent []).1
          (handler.answerBody occasion request.path request.body
            (state.telemetry.openSpan "admission_review" parent []).1)
          { state with telemetry := (state.telemetry.openSpan "admission_review" parent []).2 } := by
    rw [if_neg (not_not_intro path), if_neg (not_not_intro posted), Handler.post,
      if_neg (Nat.not_lt.2 fits)]
  rw [serve, opened]
  simp only [post]
  -- with or without a span around the request, the answer is that of the work within
  cases (handler.tracer.openRequest (spanName handler.webhook) request.method request.path
    state.telemetry).1 <;> rfl

theorem not_empty_of_decode {body : Bytes} {review : Review}
    (decoded : Review.decode body = .ok review) : body.isEmpty = false := by
  cases body with
  | nil => cases decoded
  | cons byte body => rfl

theorem answerBody_eq {handler : Handler σ} {occasion : Occasion} {path : String} {body : Bytes}
    {span : SpanId} {state : State σ} {review : Review}
    (decoded : Review.decode body = .ok review) :
    (handler.answerBody occasion path body span state).answer =
      match handler.handover? path review span state with
      | none => .error Instant.overflow
      | some (context, begun) =>
        (handler.conclude occasion context span review
          (handler.webhook.review context review begun)).answer := by
  rw [answerBody, not_empty_of_decode decoded, decoded, handover?]
  cases handler.timeout with
  | none => rfl
  | some seconds =>
    simp only [Bool.false_eq_true, ↓reduceIte]
    generalize Context.withTimeout? _ _ seconds = context?
    cases context? <;> rfl

theorem serve_reviewed {handler : Handler σ} (occasion : Occasion) {request : Http.Request}
    {state begun : State σ} {review : Review} {context : Context} {response : Response}
    (posted : request.method = "POST") (path : request.path = "/")
    (fits : request.body.length ≤ maxBodyBytes)
    (decoded : Review.decode request.body = .ok review)
    (reviewed : handler.reviewed? request review state = some (context, begun))
    (done : (handler.webhook.review context review begun).outcome = .done response) :
    (handler.serve occasion request state).answer =
      .ok (.json 200 (ReviewResponse.encode review.generation response).toJson.render) := by
  rw [reviewed?] at reviewed
  rw [serve_posted posted path fits, answerBody_eq decoded, reviewed]
  simp only [conclude, done, failure?]

/-- A posted review whose mutation succeeds gets an answer that allows the object and makes the
mutated object out of the one that was received, where no registered type decodes it and its numbers
read back, as integers do. What the mutation did not edit is as it was received. -/
theorem serve_unstructured_round_trip {handler : Handler σ} {occasion : Occasion}
    {request : Http.Request} {state begun : State σ} {reviewer : Reviewer (Mutator σ)}
    {registry : Registry} {review : Review} {received : Json} {context : Context}
    {mutation : Mutation} {final : Object}
    (mutating : handler.webhook = .mutating reviewer)
    (dynamic : reviewer.creator = .dynamic registry)
    (posted : request.method = "POST") (path : request.path = "/")
    (fits : request.body.length ≤ maxBodyBytes)
    (decoded : Review.decode request.body = .ok review)
    (selected : Review.received? request.body = some received)
    (isObject : received.isObject = true) (reads : received.ReadsBack)
    (declines : registry.Declines received)
    (reviewed : handler.reviewed? request review state = some (context, begun))
    (mutated : (reviewer.mutation context review (.unstructured received) begun).outcome =
      .done mutation)
    (final_eq : (reviewer.mutation context review (.unstructured received) begun).final mutation =
      final)
    (integral : final.toJson.Integral) :
    ∃ response answer, (handler.serve occasion request state).answer = .ok response ∧
      response.status = 200 ∧ Json.parse (Text.utf8Bytes response.body) = .ok answer ∧
      Allows answer.json received final.toJson ∧
      (Object.unstructured received).toJson = received ∧
      (∀ object pointer, final = .generic object → object.Keeps received pointer →
        final.toJson.at? pointer = received.at? pointer) ∧
      ∀ whole, Json.parse request.body = .ok whole → ∀ other,
        whole.json.at? ["request", review.operation.objectMember] = some other →
        other = received := by
  obtain ⟨node, tree, value, rfl, raw, stands⟩ := Review.node_of_received decoded selected
  have written : (Object.unstructured tree.json).toJson = tree.json :=
    Object.toJson_unstructured tree.canonical
  have shallow : tree.json.depth ≤ Json.nestingLimit :=
    (Json.depth_of_value node value).trans (by decide)
  -- the webhook is handed the text of the received object, which no registered type takes
  have created : (reviewer.creator.newObject review.rawObject).result =
      .ok (.unstructured tree.json) := by
    rw [dynamic, raw]
    exact Creator.newObject_rawBytes tree.canonical isObject shallow reads declines
  have done : (handler.webhook.review context review begun).outcome =
      .done (Reviewer.mutatingResponse review (.unstructured tree.json) final
        mutation.warnings) := by
    rw [mutating, ← final_eq]
    exact Reviewer.mutate_eq_done_iff.2 ⟨_, mutation, created, mutated, rfl⟩
  have answered := serve_reviewed occasion posted path fits decoded reviewed done
  obtain ⟨answer, parsed, allows⟩ :=
    ReviewResponse.allows_encode review.generation review mutation.warnings integral
  rw [written] at allows
  refine ⟨_, answer, answered, rfl, parsed, allows, written, fun object pointer final_eq keeps => ?_,
    stands⟩
  rw [final_eq]
  exact keeps.at?_toTree

def naming : Handler Unit where
  webhook := .mutating Reviewer.naming
  logger := .silent
  tracer := .silent
  timeout := none

def namelessRequest : Http.Request where
  method := "POST"
  target := "/"
  body := Text.utf8Bytes
    ("\x7b\"kind\":\"AdmissionReview\",\"apiVersion\":\"admission.k8s.io/v1\",\"request\":" ++
      "\x7b\"operation\":\"CREATE\",\"object\":\x7b\"spec\":null\x7d\x7d\x7d")

set_option maxRecDepth 8000 in
theorem naming_serve_round_trip : ∃ response answer,
    (naming.serve ⟨"1", "1ms"⟩ namelessRequest ⟨⟨0, 1, [], ()⟩, {}⟩).answer = .ok response ∧
    response.status = 200 ∧ Json.parse (Text.utf8Bytes response.body) = .ok answer ∧
    Allows answer.json (.object [("spec", .null)])
      (.object [("metadata", .object [("name", .string "b")]), ("spec", .null)]) := by
  have declines : Registry.empty.Declines (.object [("spec", .null)]) := by
    intro name kind named
    cases named
  have metadata : (Json.object [("name", .string "b")]).Integral :=
    .object (by simp [Json.Integral.string])
  have integral : (Json.object [("metadata", .object [("name", .string "b")]),
      ("spec", .null)]).Integral :=
    .object (by simp [Json.Integral.null, metadata])
  obtain ⟨response, answer, answered, status, parsed, allows, -⟩ :=
    @serve_unstructured_round_trip Unit naming ⟨"1", "1ms"⟩ namelessRequest ⟨⟨0, 1, [], ()⟩, {}⟩
      _ _ _ _ _ _ _ _ rfl rfl rfl rfl (by decide +kernel) rfl rfl rfl rfl declines rfl rfl rfl integral
  exact ⟨response, answer, answered, status, parsed, allows⟩

end Admission.Handler
