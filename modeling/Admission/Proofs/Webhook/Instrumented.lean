import Admission.Proofs.Webhook.Layers
import Admission.Proofs.Webhook.Mutating

/-! What the journal tells of one review by a webhook that is measured and traced. Measurement and
trace are of the same outcome, in whichever order the two layers stand. -/

set_option autoImplicit false

namespace Admission

variable {σ : Type}

def Response.kind : Response → WebhookKind
  | .validating .. => .validating
  | .mutating .. => .mutating

namespace Webhook

theorem kind_of_review {webhook : Webhook σ} {context : Context} {request : Review}
    {state : State σ} {response : Response}
    (answered : (webhook.review context request state).outcome = .done response) :
    response.kind = webhook.kind := by
  induction webhook generalizing context state with
  | mutating reviewer =>
    obtain ⟨object, mutation, -, -, rfl⟩ := Reviewer.mutate_eq_done_iff.1 answered
    rfl
  | validating reviewer =>
    simp only [review, Reviewer.validate] at answered
    split at answered
    · cases answered
    · split at answered
      · cases answered
      · cases answered
      · cases answered; rfl
  | measured recorder webhook ih => exact ih answered
  | traced tracer webhook ih => exact ih answered

inductive Plain : Webhook σ → Prop where
  | mutating (reviewer : Reviewer (Mutator σ)) : Plain (.mutating reviewer)
  | validating (reviewer : Reviewer (Validator σ)) : Plain (.validating reviewer)

theorem Plain.logs {base : Webhook σ} (plain : base.Plain) (context : Context) (request : Review)
    (state : State σ) :
    state.telemetry.Logs (base.review context request state).state.telemetry := by
  cases plain with
  | mutating reviewer => exact reviewer.logs_mutate context request state
  | validating reviewer => exact reviewer.logs_validate context request state

/-- A webhook with one layer that measures it and one that traces it. -/
inductive Instrumented (recorder : Recorder) (tracer : Tracer) (base : Webhook σ) :
    Webhook σ → Prop where
  | measuredTrace (plain : base.Plain) :
    Instrumented recorder tracer base (.measured recorder (.traced tracer base))
  | tracedMeasurement (plain : base.Plain) :
    Instrumented recorder tracer base (.traced tracer (.measured recorder base))

/-- What is written when the review within both layers is done: the measurement and the end of the
trace, in one order or the other. -/
inductive Ends (recorder : Recorder) (tracer : Tracer) (parent : Option SpanId) (span : SpanId)
    (measurement : Measurement) (verdict : Verdict) (notes : List TraceNote) : List Record → Prop where
  | measuredLast : Ends recorder tracer parent span measurement verdict notes
      (notes.flatMap (tracer.tells parent span) ++ recorder.tells measurement verdict)
  | tracedLast : Ends recorder tracer parent span measurement verdict notes
      (recorder.tells measurement verdict ++ notes.flatMap (tracer.tells parent span))

variable {recorder : Recorder} {tracer : Tracer} {base webhook : Webhook σ}

theorem Instrumented.kind_eq (instrumented : Instrumented recorder tracer base webhook) :
    webhook.kind = base.kind := by
  cases instrumented <;> rfl

/-- A review opens a trace, writes lines, and then both layers tell of its outcome. -/
theorem Instrumented.writes (instrumented : Instrumented recorder tracer base webhook)
    (context : Context) (request : Review) (state : State σ) :
    ∃ milliseconds span lines ends,
      let outcome := (webhook.review context request state).outcome
      (∀ record ∈ lines, record.isLine = true) ∧
      Ends recorder tracer context.trace span
        (measurement base.id base.kind request milliseconds outcome) (verdict base.kind outcome)
        (closing outcome) ends ∧
      webhook.Writes context request state
        ((base.opening tracer request).flatMap (tracer.tells context.trace span) ++ lines ++ ends) := by
  cases instrumented with
  | measuredTrace plain =>
    let ran := (Webhook.traced tracer base).review context request state
    obtain ⟨opened, -⟩ := base.grows_tracedState tracer context request state
    obtain ⟨lines, are, logged⟩ := plain.logs (base.tracedContext tracer context state) request
      (base.tracedState tracer context request state)
    have traced := base.telemetry_traced tracer context request state rfl
    refine ⟨ran.state.world.now - state.world.now, state.telemetry.spans, lines, _, are,
      .measuredLast, ?_⟩
    rw [Writes, review, Recorder.record_tells, traced, logged]
    simp only [Telemetry.tell, opened.journal, List.append_assoc]
    rfl
  | tracedMeasurement plain =>
    let own := base.tracedContext tracer context state
    let begun := base.tracedState tracer context request state
    let ran := base.review own request begun
    obtain ⟨opened, -⟩ := base.grows_tracedState tracer context request state
    obtain ⟨lines, are, logged⟩ := plain.logs own request begun
    -- a trace is named after the id, which the measurement leaves as it is
    have traced := (measured recorder base).telemetry_traced tracer context request state rfl
    refine ⟨ran.state.world.now - begun.world.now, state.telemetry.spans, lines, _, are,
      .tracedLast, ?_⟩
    have measured : ((measured recorder base).review own request begun).state.telemetry =
        ran.state.telemetry.tell (recorder.tells (measurement base.id base.kind request
          (ran.state.world.now - begun.world.now) ran.outcome) (verdict base.kind ran.outcome)) :=
      Recorder.record_tells ..
    rw [Writes, traced]
    refine (congrArg (fun telemetry => (Telemetry.tell telemetry _).journal) measured).trans ?_
    rw [logged]
    simp only [Telemetry.tell, begun, opened.journal, List.append_assoc]
    rfl

end Webhook

end Admission
