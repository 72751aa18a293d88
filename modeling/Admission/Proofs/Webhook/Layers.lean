import Admission.Proofs.Telemetry.Records
import Admission.Telemetry.Metrics

/-! What a webhook writes while it reviews a request. Each layer that measures or traces it speaks
around all that is within: a trace is opened before and ended after it, a measurement comes after
it, each just once and whichever way the review ends. -/

set_option autoImplicit false

namespace Admission

variable {σ : Type}

mutual

theorem Mutator.logs_run (mutator : Mutator σ) (context : Context) (review : Review)
    (object : Object) (state : State σ) :
    state.telemetry.Logs (mutator.run context review object state).state.telemetry := by
  cases mutator with
  | leaf call =>
    rw [run]
    exact State.logs_remarks { state with world := _ } context _
  | chain logger steps =>
    rw [run]
    exact logs_runSteps (chainLogger logger) steps context review object {} state

theorem Mutator.logs_runSteps (logger : Logger) (steps : List (Mutator σ)) (context : Context)
    (review : Review) (object : Object) (sofar : Mutation) (state : State σ) :
    state.telemetry.Logs
      (runSteps logger steps context review object sofar state).state.telemetry := by
  cases steps with
  | nil => exact .refl _
  | cons step steps =>
    have step_logs := logs_run step context review (sofar.replacement.getD object) state
    simp only [runSteps]
    split
    · exact .refl _
    · split
      · exact step_logs
      · exact step_logs
      · split
        · exact step_logs.trans (logger.logs_report context .debug _ _)
        · exact step_logs.trans (logs_runSteps logger steps context review _ _ _)

end

mutual

theorem Validator.logs_run (validator : Validator σ) (context : Context) (review : Review)
    (object : Object) (state : State σ) :
    state.telemetry.Logs (validator.run context review object state).state.telemetry := by
  cases validator with
  | leaf call => exact .refl _
  | chain logger steps =>
    rw [run]
    exact logs_runSteps (chainLogger logger) steps context review object [] state

theorem Validator.logs_runSteps (logger : Logger) (steps : List (Validator σ)) (context : Context)
    (review : Review) (object : Object) (warnings : List String) (state : State σ) :
    state.telemetry.Logs
      (runSteps logger steps context review object warnings state).state.telemetry := by
  cases steps with
  | nil => exact .refl _
  | cons step steps =>
    have step_logs := logs_run step context review object state
    simp only [runSteps]
    split
    · exact .refl _
    · split
      · exact step_logs
      · exact step_logs
      · split
        · exact step_logs.trans (logger.logs_report context .debug _ _)
        · exact step_logs.trans (logs_runSteps logger steps context review object _ _)

end

namespace Reviewer

theorem logs_mutate (reviewer : Reviewer (Mutator σ)) (context : Context) (review : Review)
    (state : State σ) :
    state.telemetry.Logs (reviewer.mutate context review state).state.telemetry := by
  have begun := ((reviewer.loggerOf .mutating).logs_report context .debug
    "webhook mutating review request received" state).trans
    (State.logs_remarks _ context (reviewer.creator.newObject review.rawObject).remark.toList)
  simp only [mutate]
  split
  · exact begun
  · rename_i object _
    have ran := begun.trans (reviewer.logic.logs_run context review object _)
    split
    · exact ran
    · exact ran
    · exact ran.trans (Logger.logs_report _ context .debug _ _)

theorem logs_validate (reviewer : Reviewer (Validator σ)) (context : Context) (review : Review)
    (state : State σ) :
    state.telemetry.Logs (reviewer.validate context review state).state.telemetry := by
  have begun := ((reviewer.loggerOf .validating).logs_report context .debug
    "webhook validating review request received" state).trans
    (State.logs_remarks _ context (reviewer.creator.newObject review.rawObject).remark.toList)
  simp only [validate]
  split
  · exact begun
  · rename_i object _
    have ran := begun.trans (reviewer.logic.logs_run context review object _)
    split
    · exact ran
    · exact ran
    · exact ran.trans (Logger.logs_report _ context .debug _ _)

end Reviewer

namespace Webhook

def opening (webhook : Webhook σ) (tracer : Tracer) (request : Review) : List TraceNote :=
  [.opened ("webhook.Review/" ++ webhook.id) tracer.values,
    .values (reviewValues webhook.id request), .event "webhook review started" ∅]

def closing : Outcome ReviewError Response → List TraceNote
  | .done response =>
    [.values (responseValues response), .event "webhook review finished" ∅, .ended none]
  | .failed error => [.ended (some error.message)]
  | .panicked _ => [.ended (some "webhook review did not finish")]

def Writes (webhook : Webhook σ) (context : Context) (request : Review) (state : State σ)
    (records : List Record) : Prop :=
  (webhook.review context request state).state.telemetry.journal =
    state.telemetry.journal ++ records

/-- The records of a review, layer by layer from the inside. A layer that measures says one word
when all within is done. A layer that traces opens its trace before and ends it after all within. -/
inductive Layered (request : Review) : Webhook σ → Context → State σ → List Record → Prop where
  | mutating {reviewer : Reviewer (Mutator σ)} {context : Context} {state : State σ}
    {records : List Record} (lines : ∀ record ∈ records, record.isLine = true) :
    Layered request (.mutating reviewer) context state records
  | validating {reviewer : Reviewer (Validator σ)} {context : Context} {state : State σ}
    {records : List Record} (lines : ∀ record ∈ records, record.isLine = true) :
    Layered request (.validating reviewer) context state records
  | measured {recorder : Recorder} {webhook : Webhook σ} {context : Context} {state : State σ}
    {within : List Record} (written : webhook.Writes context request state within)
    (inner : Layered request webhook context state within) {measurement : Measurement}
    {verdict : Verdict} (kind : measurement.kind = webhook.kind ∧ verdict.kind = webhook.kind)
    (success : measurement.success = true ↔
      ∃ response, (webhook.review context request state).outcome = .done response) :
    Layered request (.measured recorder webhook) context state
      (within ++ recorder.tells measurement verdict)
  | traced {tracer : Tracer} {webhook : Webhook σ} {context own : Context} {state begun : State σ}
    {span : SpanId} {within : List Record} (world : begun.world = state.world)
    (opened : begun.telemetry.journal = state.telemetry.journal ++
      (webhook.opening tracer request).flatMap (tracer.tells context.trace span))
    (written : webhook.Writes own request begun within)
    (inner : Layered request webhook own begun within)
    (outcome : ((traced tracer webhook).review context request state).outcome =
      (webhook.review own request begun).outcome)
    (apart : ∀ values, tracer = .spans values → ∀ record ∈ within, record.bound? ≠ some span) :
    Layered request (.traced tracer webhook) context state
      ((webhook.opening tracer request).flatMap (tracer.tells context.trace span) ++ within ++
        (closing (webhook.review own request begun).outcome).flatMap
          (tracer.tells context.trace span))

theorem kind_verdict (kind : WebhookKind) (outcome : Outcome ReviewError Response) :
    (verdict kind outcome).kind = kind := by
  cases kind <;> rfl

theorem success_measurement (id : String) (kind : WebhookKind) (request : Review)
    (milliseconds : Nat) (outcome : Outcome ReviewError Response) :
    (measurement id kind request milliseconds outcome).success = true ↔
      ∃ response, outcome = .done response := by
  cases outcome with
  | done response => exact iff_of_true rfl ⟨response, rfl⟩
  | failed error => exact iff_of_false nofun nofun
  | panicked message => exact iff_of_false nofun nofun

def tracedContext (webhook : Webhook σ) (tracer : Tracer) (context : Context)
    (state : State σ) : Context :=
  (tracer.start context ("webhook.Review/" ++ webhook.id) state.telemetry).1

def tracedState (webhook : Webhook σ) (tracer : Tracer) (context : Context) (request : Review)
    (state : State σ) : State σ :=
  let (own, telemetry) := tracer.start context ("webhook.Review/" ++ webhook.id) state.telemetry
  { state with
    telemetry := tracer.addEvent own "webhook review started" ∅
      (tracer.addValues own (reviewValues webhook.id request) telemetry) }

theorem grows_tracedState (webhook : Webhook σ) (tracer : Tracer) (context : Context)
    (request : Review) (state : State σ) :
    state.telemetry.Grows (webhook.tracedState tracer context request state).telemetry
        ((webhook.opening tracer request).flatMap
          (tracer.tells context.trace state.telemetry.spans)) ∧
      ∀ values, tracer = .spans values →
        state.telemetry.spans <
          (webhook.tracedState tracer context request state).telemetry.spans := by
  have on := tracer.on_start context state.telemetry ("webhook.Review/" ++ webhook.id)
  obtain ⟨journal, spans, new⟩ :=
    tracer.start_tells context state.telemetry ("webhook.Review/" ++ webhook.id)
  have begun : (webhook.tracedState tracer context request state).telemetry =
      { (tracer.start context ("webhook.Review/" ++ webhook.id) state.telemetry).2 with
        journal := state.telemetry.journal ++ (webhook.opening tracer request).flatMap
          (tracer.tells context.trace state.telemetry.spans) } := by
    simp only [tracedState, Tracer.addValues_tells _ on context.trace,
      Tracer.addEvent_tells _ on context.trace, Telemetry.tell, journal, opening,
      List.flatMap_cons, List.flatMap_nil, List.append_nil, List.append_assoc]
  rw [begun]
  refine ⟨⟨rfl, spans, fun record mem span bound => ?_⟩, new⟩
  obtain ⟨rfl, values, is_spans⟩ := Tracer.eq_of_mem_flatMap_tells mem bound
  exact ⟨Nat.le_refl _, new values is_spans⟩

theorem telemetry_traced (webhook : Webhook σ) (tracer : Tracer) (context : Context)
    (request : Review) (state : State σ) {ran : ReviewRun σ}
    (ran_eq : webhook.review (webhook.tracedContext tracer context state) request
      (webhook.tracedState tracer context request state) = ran) :
    ((traced tracer webhook).review context request state).state.telemetry =
      ran.state.telemetry.tell ((closing ran.outcome).flatMap
        (tracer.tells context.trace state.telemetry.spans)) := by
  have on := tracer.on_start context state.telemetry ("webhook.Review/" ++ webhook.id)
  simp only [tracedContext, tracedState] at ran_eq
  simp only [review, ran_eq]
  cases ran.outcome with
  | done response =>
    simp only [Tracer.addValues_tells _ on context.trace, Tracer.addEvent_tells _ on context.trace,
      Tracer.finish_tells _ on context.trace, Telemetry.tell_tell, closing, traceError?,
      List.flatMap_cons, List.flatMap_nil, List.append_nil, List.append_assoc]
  | failed error =>
    simp only [Tracer.finish_tells _ on context.trace, closing, traceError?, List.flatMap_cons,
      List.flatMap_nil, List.append_nil]
  | panicked message =>
    simp only [Tracer.finish_tells _ on context.trace, closing, traceError?, List.flatMap_cons,
      List.flatMap_nil, List.append_nil]

theorem grows_review (webhook : Webhook σ) (context : Context) (request : Review)
    (state : State σ) :
    ∃ records, state.telemetry.Grows (webhook.review context request state).state.telemetry records ∧
      Layered request webhook context state records := by
  induction webhook generalizing context state with
  | mutating reviewer =>
    obtain ⟨records, lines, eq⟩ := reviewer.logs_mutate context request state
    exact ⟨records, .of_logs lines eq, .mutating lines⟩
  | validating reviewer =>
    obtain ⟨records, lines, eq⟩ := reviewer.logs_validate context request state
    exact ⟨records, .of_logs lines eq, .validating lines⟩
  | measured recorder webhook ih =>
    obtain ⟨within, grows, inner⟩ := ih context state
    let ran := webhook.review context request state
    let measurement := measurement webhook.id webhook.kind request
      (ran.state.world.now - state.world.now) ran.outcome
    have kinds : measurement.kind = webhook.kind ∧
        (verdict webhook.kind ran.outcome).kind = webhook.kind :=
      ⟨rfl, kind_verdict webhook.kind ran.outcome⟩
    refine ⟨_, ?_, .measured grows.journal inner kinds (success_measurement ..)⟩
    rw [review, Recorder.record_tells]
    refine grows.tell fun record mem span bound => ?_
    rw [Recorder.bound?_of_mem_tells mem] at bound
    cases bound
  | traced tracer webhook ih =>
    obtain ⟨opened, new⟩ := webhook.grows_tracedState tracer context request state
    have world : (webhook.tracedState tracer context request state).world = state.world := rfl
    obtain ⟨within, grows, inner⟩ := ih (webhook.tracedContext tracer context state)
      (webhook.tracedState tracer context request state)
    refine ⟨_, ?_, .traced world opened.journal grows.journal inner rfl ?_⟩
    · -- the span of the trace was new when it was opened, and is closed by the last record
      rw [webhook.telemetry_traced tracer context request state rfl]
      refine (opened.trans grows).tell fun record mem span bound => ?_
      obtain ⟨rfl, values, is_spans⟩ := Tracer.eq_of_mem_flatMap_tells mem bound
      exact ⟨Nat.le_refl _, Nat.lt_of_lt_of_le (new values is_spans) grows.spans⟩
    · -- all that is opened and closed within came after the span of the trace
      intro values is_spans record mem bound
      have low := (grows.new record mem _ bound).1
      exact absurd (new values is_spans) (Nat.not_lt.2 low)

def recorders : Webhook σ → Nat
  | .mutating _ | .validating _ => 0
  | .measured recorder webhook => webhook.recorders + recorder.calls
  | .traced _ webhook => webhook.recorders

def tracers : Webhook σ → Nat
  | .mutating _ | .validating _ => 0
  | .measured _ webhook => webhook.tracers
  | .traced tracer webhook => webhook.tracers + tracer.traces

/-- There are as many measurements in the records, as many traces opened and as many ended. -/
structure Counts (records : List Record) (measurements opened ended : Nat) : Prop where
  measurements : records.countP Record.isMeasurement = measurements
  opened : records.countP Record.opensTrace = opened
  ended : records.countP Record.endsTrace = ended

namespace Counts

theorem of_lines {records : List Record} (lines : ∀ record ∈ records, record.isLine = true) :
    Counts records 0 0 0 := by
  have none {p : Record → Bool}
      (apart : ∀ record : Record, record.isLine = true → p record = false) :
      records.countP p = 0 := by
    rw [List.countP_eq_zero]
    intro record mem
    rw [apart record (lines record mem)]
    exact Bool.false_ne_true
  constructor <;> refine none fun record line => ?_ <;> cases record <;> first | rfl | cases line

theorem append {first second : List Record} {measurements opened ended more : Nat} {also last : Nat}
    (one : Counts first measurements opened ended) (other : Counts second more also last) :
    Counts (first ++ second) (measurements + more) (opened + also) (ended + last) := by
  constructor
  · rw [List.countP_append, one.measurements, other.measurements]
  · rw [List.countP_append, one.opened, other.opened]
  · rw [List.countP_append, one.ended, other.ended]

theorem recorder (recorder : Recorder) (measurement : Measurement) (verdict : Verdict) :
    Counts (recorder.tells measurement verdict) recorder.calls 0 0 := by
  cases recorder <;> exact ⟨rfl, rfl, rfl⟩

theorem opening (webhook : Webhook σ) (tracer : Tracer) (request : Review)
    (parent : Option SpanId) (span : SpanId) :
    Counts ((webhook.opening tracer request).flatMap (tracer.tells parent span))
      0 tracer.traces 0 := by
  cases tracer <;> exact ⟨rfl, rfl, rfl⟩

theorem closing (outcome : Outcome ReviewError Response) (tracer : Tracer)
    (parent : Option SpanId) (span : SpanId) :
    Counts ((closing outcome).flatMap (tracer.tells parent span)) 0 0 tracer.traces := by
  cases outcome <;> cases tracer <;> exact ⟨rfl, rfl, rfl⟩

end Counts

theorem Layered.counts {request : Review} {webhook : Webhook σ} {context : Context}
    {state : State σ} {records : List Record}
    (layered : Layered request webhook context state records) :
    Counts records webhook.recorders webhook.tracers webhook.tracers := by
  induction layered with
  | mutating lines => exact .of_lines lines
  | validating lines => exact .of_lines lines
  | measured written inner kind success ih => exact ih.append (.recorder ..)
  | @traced tracer webhook context own state begun span within _ _ _ _ _ _ ih =>
    have around := ((Counts.opening webhook tracer request context.trace span).append ih).append
      (Counts.closing (webhook.review own request begun).outcome tracer context.trace span)
    simpa only [recorders, tracers, Nat.zero_add, Nat.add_zero, Nat.add_comm tracer.traces]
      using around

/-- A review writes its records layer by layer, from the inside to the outside. Each layer that is
heard measures once, or opens and ends one trace, whether the review answers, fails or panics. -/
theorem review_layered (webhook : Webhook σ) (context : Context) (request : Review)
    (state : State σ) :
    ∃ records, webhook.Writes context request state records ∧
      Layered request webhook context state records ∧
      Counts records webhook.recorders webhook.tracers webhook.tracers := by
  obtain ⟨records, grows, layered⟩ := webhook.grows_review context request state
  exact ⟨records, grows.journal, layered, layered.counts⟩

end Webhook

end Admission
