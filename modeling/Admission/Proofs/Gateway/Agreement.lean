import Admission.Proofs.Gateway.Answers
import Admission.Proofs.Kubernetes.Decoding
import Admission.Proofs.Webhook.Instrumented

/-! The answer to a review, the measurement of it, the end of its trace and the log of the gateway
are made of one outcome, each in its own way. They agree whatever the outcome is. -/

set_option autoImplicit false

namespace Admission

variable {σ : Type}

def Record.level? : Record → Option Level
  | .event level _ _ _ | .line level _ _ => some level
  | _ => none

namespace Logger

def tells (logger : Logger) (context : Context) (level : Level) (message : String) : List Record :=
  ((logger.withContext context).log level message context.scope {}).journal

def heard {α : Type} (logger : Logger) (lines : List α) : List α :=
  match logger with
  | .silent => []
  | .events _ | .recording _ => lines

theorem report_tells (logger : Logger) (context : Context) (level : Level) (message : String)
    (state : State σ) : (logger.report context level message state).telemetry =
      state.telemetry.tell (logger.tells context level message) := by
  rw [report, tells]
  cases logger.withContext context with
  | silent => exact (Telemetry.tell_nil _).symm
  | events values => rfl
  | recording values => rfl

theorem levels_tells (logger : Logger) (context : Context) (level : Level) (message : String) :
    (logger.tells context level message).filterMap Record.level? = logger.heard [level] := by
  cases logger <;> rfl

theorem heard_append {α : Type} (logger : Logger) (first second : List α) :
    logger.heard (first ++ second) = logger.heard first ++ logger.heard second := by
  cases logger <;> rfl

theorem isMeasurement_of_mem_tells {logger : Logger} {context : Context} {level : Level}
    {message : String} {record : Record} (mem : record ∈ logger.tells context level message) :
    record.isMeasurement = false := by
  cases logger with
  | silent => cases mem
  | events values => cases List.mem_singleton.1 mem; rfl
  | recording values => cases List.mem_singleton.1 mem; rfl

end Logger

/-- What is told of a review beside its answer: to the recorder, to the tracer when it is done, and in
the lines of the gateway. -/
structure Account where
  measurement : Measurement
  verdict : Verdict
  notes : List TraceNote
  levels : List Level

namespace Account

/-- The warnings of a response are counted, and they are sent or there is a line about them. -/
structure Warned (account : Account) (review : Review) (answer : Json) (warnings : List String) :
    Prop where
  counted : account.measurement.warnings = warnings.length
  sent : review.generation = .v1 → answer.at? ["response", "warnings"] =
    if warnings = [] then none else some (Wire.strings warnings)
  levels : account.levels =
    if review.generation = .v1beta1 ∧ warnings ≠ [] then [.warning, .info] else [.info]

inductive Agrees (account : Account) (review : Review) (answer : Json) :
    Outcome ReviewError Response → Nat → Prop where
  | mutated {id : String} {patch : Bytes} {warnings : List String} {values : SortedMap Json}
    {changed : Bool} (success : account.measurement.success = true)
    (verdict : account.verdict = .mutated changed)
    (notes : account.notes = [.values values, .event "webhook review finished" ∅, .ended none])
    (traced : values.find? "mutated" = some (.bool changed))
    (type : (answer.at? ["response", "patchType"]).isSome = changed)
    (patched : (answer.at? ["response", "patch"]).isSome = changed)
    (warned : account.Warned review answer warnings) :
    Agrees account review answer (.done (.mutating id patch warnings)) 200
  | validated {id message : String} {warnings : List String} {values : SortedMap Json}
    {allowed : Bool} (success : account.measurement.success = true)
    (verdict : account.verdict = .allowed allowed)
    (notes : account.notes = [.values values, .event "webhook review finished" ∅, .ended none])
    (traced : values.find? "allowed" = some (.bool allowed))
    (sent : answer.at? ["response", "allowed"] = some (.bool allowed))
    (warned : account.Warned review answer warnings) :
    Agrees account review answer (.done (.validating id allowed message warnings)) 200
  | failed {outcome : Outcome ReviewError Response} (noResponse : ∀ response, outcome ≠ .done response)
    (success : account.measurement.success = false) (verdict : account.verdict.value = false)
    (warnings : account.measurement.warnings = 0) {message : String}
    (notes : account.notes = [.ended (some message)]) (levels : account.levels = [.error]) :
    Agrees account review answer outcome 500

theorem Agrees.success_iff {account : Account} {review : Review} {answer : Json}
    {outcome : Outcome ReviewError Response} {status : Nat}
    (agrees : account.Agrees review answer outcome status) :
    account.measurement.success = true ↔ status = 200 := by
  cases agrees with
  | mutated success => exact iff_of_true success rfl
  | validated success => exact iff_of_true success rfl
  | failed _ success => exact iff_of_false (by simp [success]) (by decide)

end Account

def Review.levels (review : Review) : Outcome ReviewError Response → List Level
  | .done response =>
    if review.generation = .v1beta1 ∧ response.warnings ≠ [] then [.warning, .info] else [.info]
  | _ => [.error]

def Webhook.account (base : Webhook σ) (review : Review) (milliseconds : Nat)
    (outcome : Outcome ReviewError Response) : Account where
  measurement := measurement base.id base.kind review milliseconds outcome
  verdict := verdict base.kind outcome
  notes := closing outcome
  levels := review.levels outcome

namespace Webhook

open ReviewResponse (encode)

theorem warned (base : Webhook σ) (review : Review) (milliseconds : Nat) (response : Response) :
    (base.account review milliseconds (.done response)).Warned review
      (Json.Tree.ofJson (encode review.generation response).toJson).json response.warnings where
  counted := rfl
  sent v1 := v1 ▸ ReviewResponse.at?_warnings_encode response
  levels := rfl

theorem find?_mutated (id : String) (patch : Bytes) (warnings : List String) :
    (responseValues (.mutating id patch warnings)).find? "mutated" =
      some (.bool (hasMutated patch)) := by
  rw [responseValues, SortedMap.find?_ofList (by simp [Entries.keys])]
  rfl

theorem find?_allowed (id : String) (allowed : Bool) (message : String) (warnings : List String) :
    (responseValues (.validating id allowed message warnings)).find? "allowed" =
      some (.bool allowed) := by
  rw [responseValues, SortedMap.find?_ofList (by simp [Entries.keys])]
  rfl

theorem agrees_done {base : Webhook σ} {review : Review} (milliseconds : Nat) {response : Response}
    (kind : response.kind = base.kind) :
    (base.account review milliseconds (.done response)).Agrees review
      (Json.Tree.ofJson (encode review.generation response).toJson).json (.done response) 200 := by
  have warned := base.warned review milliseconds response
  cases response with
  | mutating id patch warnings =>
    obtain ⟨-, type, encoded⟩ :=
      ReviewResponse.response_encode_mutating review.generation id patch warnings
    refine .mutated rfl ?_ rfl (find?_mutated id patch warnings) ?_ ?_ warned
    · show verdict base.kind (.done (.mutating id patch warnings)) = .mutated (hasMutated patch)
      rw [← kind]
      rfl
    · rw [ReviewResponse.at?_member, AdmissionResponse.find?_patchType, type]
      cases hasMutated patch <;> rfl
    · rw [ReviewResponse.at?_member, AdmissionResponse.find?_patch, encoded]
      cases hasMutated patch <;> rfl
  | validating id allowed message warnings =>
    refine .validated rfl ?_ rfl (find?_allowed id allowed message warnings) ?_ warned
    · show verdict base.kind (.done (.validating id allowed message warnings)) = .allowed allowed
      rw [← kind]
      rfl
    · rw [ReviewResponse.at?_member, AdmissionResponse.find?_allowed]
      cases review.generation <;> rfl

theorem agrees_failed (base : Webhook σ) (review : Review) (milliseconds : Nat) (answer : Json)
    {outcome : Outcome ReviewError Response} (noResponse : ∀ response, outcome ≠ .done response) :
    (base.account review milliseconds outcome).Agrees review answer outcome 500 := by
  have verdict (kind : WebhookKind) : (Webhook.verdict kind outcome).value = false := by
    cases outcome with
    | done response => exact absurd rfl (noResponse response)
    | failed error => cases kind <;> rfl
    | panicked message => cases kind <;> rfl
  cases outcome with
  | done response => exact absurd rfl (noResponse response)
  | failed error => exact .failed noResponse rfl (verdict base.kind) rfl rfl rfl
  | panicked message => exact .failed noResponse rfl (verdict base.kind) rfl rfl rfl

end Webhook

namespace Handler

/-- The records of the gateway about a review, the lines among them being of the given levels. -/
structure Records (handler : Handler σ) (levels : List Level) (gateway : List Record) : Prop where
  levels : gateway.filterMap Record.level? = handler.logger.heard levels
  noMeasurement : ∀ record ∈ gateway, record.isMeasurement = false

theorem Records.line (handler : Handler σ) (context : Context) (level : Level) (message : String) :
    handler.Records [level] (handler.logger.tells context level message) :=
  ⟨Logger.levels_tells .., fun _ => Logger.isMeasurement_of_mem_tells⟩

theorem Records.fields (handler : Handler σ) (span : SpanId) (fields : Fields) :
    handler.Records [] [.spanRecorded span fields] where
  levels := by cases handler.logger <;> rfl
  noMeasurement record mem := by cases List.mem_singleton.1 mem; rfl

theorem Records.append {handler : Handler σ} {levels more : List Level} {first second : List Record}
    (one : handler.Records levels first) (other : handler.Records more second) :
    handler.Records (levels ++ more) (first ++ second) where
  levels := by rw [List.filterMap_append, one.levels, other.levels, Logger.heard_append]
  noMeasurement := List.forall_mem_append.2 ⟨one.noMeasurement, other.noMeasurement⟩

theorem conclude_records (handler : Handler σ) (occasion : Occasion) (context : Context)
    (span : SpanId) (review : Review) (ran : ReviewRun σ) : ∃ gateway,
      (handler.conclude occasion context span review ran).state.telemetry =
        ran.state.telemetry.tell gateway ∧ handler.Records (review.levels ran.outcome) gateway := by
  -- a failure and a panic are told by one line, a response by what there is to tell of it
  have failed (message : String) (failure : failure? occasion ran.outcome = .error message)
      (levels : review.levels ran.outcome = [.error]) : ∃ gateway,
      (handler.conclude occasion context span review ran).state.telemetry =
        ran.state.telemetry.tell gateway ∧ handler.Records (review.levels ran.outcome) gateway := by
    rw [conclude, failure, levels]
    exact ⟨_, Logger.report_tells .., .line ..⟩
  cases ended : ran.outcome with
  | failed error => rw [ended] at failed; exact failed _ rfl rfl
  | panicked message => rw [ended] at failed; exact failed _ rfl rfl
  | done response =>
    have told := Records.fields handler span (responseField response)
    have warned := Records.line handler context .warning (ignoredWarnings review.generation)
    have handled := Records.line handler context .info
      ("admission review request handled, duration: " ++ occasion.duration)
    have ignored_iff : (!review.generation.supportsWarnings && !response.warnings.isEmpty) = true ↔
        review.generation = .v1beta1 ∧ response.warnings ≠ [] := by
      cases review.generation <;> simp [Generation.supportsWarnings]
    simp only [conclude, ended, failure?, Review.levels]
    by_cases ignored : review.generation = .v1beta1 ∧ response.warnings ≠ []
    · rw [if_pos (ignored_iff.2 ignored), if_pos ignored]
      refine ⟨_, ?_, warned.append (told.append handled)⟩
      rw [Logger.report_tells, State.note, Logger.report_tells]
      exact (Telemetry.tell_tell ..).trans (Telemetry.tell_tell ..)
    · rw [if_neg (mt ignored_iff.1 ignored), if_neg ignored]
      refine ⟨_, ?_, told.append handled⟩
      rw [Logger.report_tells]
      exact Telemetry.tell_tell ..

theorem conclude_agrees (handler : Handler σ) (occasion : Occasion) (context : Context)
    (span : SpanId) {review : Review} {ran : ReviewRun σ} {base : Webhook σ} (milliseconds : Nat)
    (kind : ∀ response, ran.outcome = .done response → response.kind = base.kind) :
    ∃ response answer, (handler.conclude occasion context span review ran).answer = .ok response ∧
      Json.parse (Text.utf8Bytes response.body) = .ok answer ∧
      (base.account review milliseconds ran.outcome).Agrees review answer.json ran.outcome
        response.status := by
  cases ended : ran.outcome with
  | done response =>
    simp only [conclude, ended, failure?]
    exact ⟨_, _, rfl, ReviewResponse.parse_toJson _,
      Webhook.agrees_done milliseconds (kind response ended)⟩
  | failed error =>
    simp only [conclude, ended, failure?]
    exact ⟨_, _, rfl, ReviewResponse.parse_toJson _,
      base.agrees_failed review milliseconds _ (by simp)⟩
  | panicked message =>
    simp only [conclude, ended, failure?]
    exact ⟨_, _, rfl, ReviewResponse.parse_toJson _,
      base.agrees_failed review milliseconds _ (by simp)⟩

/-! ## The journal of a request -/

/-- Records that are neither lines nor measurements. -/
def Quiet (records : List Record) : Prop :=
  ∀ record ∈ records, record.isLine = false ∧ record.isMeasurement = false

def Quietly (before after : State σ) : Prop :=
  ∃ records, Quiet records ∧ after.telemetry.journal = before.telemetry.journal ++ records

/-- What the journal has about a review: the spans of the request are opened around it, then that of
the trace, the business logic writes lines, the layers tell of the outcome, and then the gateway. -/
inductive Chronicle (handler : Handler σ) (recorder : Recorder) (tracer : Tracer) (base : Webhook σ)
    (review : Review) (account : Account) : List Record → Prop where
  | intro {before lines ends gateway behind : List Record} {parent : Option SpanId} {span : SpanId}
    (before_quiet : Quiet before) (behind_quiet : Quiet behind)
    (logic : ∀ record ∈ lines, record.isLine = true)
    (told : Webhook.Ends recorder tracer parent span account.measurement account.verdict account.notes
      ends)
    (written : handler.Records account.levels gateway) :
    Chronicle handler recorder tracer base review account
      (before ++ ((base.opening tracer review).flatMap (tracer.tells parent span) ++ lines ++ ends) ++
        gateway ++ behind)

section

variable {handler : Handler σ} {occasion : Occasion} {request : Http.Request} {state : State σ}
  {review : Review}

theorem Quietly.trans {first second third : State σ} (one : Quietly first second)
    (other : Quietly second third) : Quietly first third := by
  obtain ⟨records, quiet, journal⟩ := one
  obtain ⟨more, also, further⟩ := other
  exact ⟨records ++ more, List.forall_mem_append.2 ⟨quiet, also⟩,
    by rw [further, journal, List.append_assoc]⟩

theorem Quietly.note (state : State σ) {record : Record}
    (quiet : record.isLine = false ∧ record.isMeasurement = false) :
    Quietly state (state.note record) :=
  ⟨[record], List.forall_mem_singleton.2 quiet, rfl⟩

theorem quietly_opened (handler : Handler σ) (request : Http.Request) (state : State σ) :
    Quietly state (handler.opened request state).2 := by
  simp only [opened, Tracer.openRequest]
  cases handler.tracer with
  | silent | recording values =>
    exact ⟨[.spanOpened _ _ _ _], by simp [Quiet, Record.isLine, Record.isMeasurement], rfl⟩
  | spans values =>
    refine ⟨[.spanOpened _ _ _ _, .spanAttributes _ _, .spanOpened _ _ _ _], ?_,
      (List.append_assoc ..).trans (List.append_assoc ..)⟩
    simp [Quiet, Record.isLine, Record.isMeasurement]

theorem quietly_fields (handler : Handler σ) (request : Http.Request) (review : Review)
    (state : State σ) : Quietly state ((handler.opened request state).2.note
      (.spanRecorded (handler.opened request state).1 (reviewFields review))) :=
  (handler.quietly_opened request state).trans (.note _ ⟨rfl, rfl⟩)

theorem quietly_reviewed {context : Context} {begun : State σ}
    (reviewed : handler.reviewed? request review state = some (context, begun)) :
    Quietly state begun := by
  obtain ⟨_, -, eq⟩ := Option.map_eq_some_iff.1 reviewed
  cases eq
  exact handler.quietly_fields request review state

theorem quietly_closed (outer? : Option SpanId) (inner : SpanId) (served : Served σ) :
    Quietly served.state (closed outer? inner served).state := by
  have inside : Quietly served.state (served.state.note (.spanClosed inner)) :=
    .note _ ⟨rfl, rfl⟩
  cases outer? with
  | none => exact inside
  | some outer => exact inside.trans (.note _ ⟨rfl, rfl⟩)

theorem answerBody_of_overflow (occasion : Occasion) {path : String} {body : Bytes} {span : SpanId}
    (decoded : Review.decode body = .ok review)
    (overflows : handler.handover? path review span state = none) :
    ∃ world, handler.answerBody occasion path body span state =
      ⟨.error Instant.overflow,
        { state.note (.spanRecorded span (reviewFields review)) with world }⟩ := by
  rw [handover?] at overflows
  rw [answerBody, not_empty_of_decode decoded, decoded]
  cases timeout : handler.timeout with
  | none => rw [timeout] at overflows; cases overflows
  | some seconds =>
    simp only [timeout, Option.map_eq_none_iff] at overflows
    simp only [Bool.false_eq_true, ↓reduceIte]
    rw [overflows]
    exact ⟨_, rfl⟩

theorem serve_of_overflow (posted : request.method = "POST") (path : request.path = "/")
    (fits : request.body.length ≤ maxBodyBytes) (decoded : Review.decode request.body = .ok review)
    (overflows : handler.reviewed? request review state = none) :
    (handler.serve occasion request state).answer = .error Instant.overflow ∧
      Quietly state (handler.serve occasion request state).state := by
  obtain ⟨world, answered⟩ := answerBody_of_overflow occasion decoded overflows
  rw [serve_of_fits posted path fits, answer_closed, answered]
  exact ⟨rfl, .trans (handler.quietly_fields request review state) (quietly_closed _ _ _)⟩

theorem serve_of_reviewed (occasion : Occasion) {context : Context} {begun : State σ}
    (posted : request.method = "POST") (path : request.path = "/") (fits : request.body.length ≤ maxBodyBytes)
    (decoded : Review.decode request.body = .ok review)
    (reviewed : handler.reviewed? request review state = some (context, begun)) :
    handler.serve occasion request state =
      closed (handler.outer? request state) (handler.opened request state).1
        (handler.conclude occasion context (handler.opened request state).1 review
          (handler.webhook.review context review begun)) := by
  rw [serve_of_fits posted path fits, answerBody_of_handover decoded reviewed]

end

/-- A posted review that can be decoded is answered, unless its deadline lies beyond the clock and
nothing but spans are told of. Its answer agrees with the measurement, the end of the trace and the
lines of the gateway, whether the webhook responds, fails or panics. -/
theorem telemetry_agrees {handler : Handler σ} {recorder : Recorder} {tracer : Tracer}
    {base : Webhook σ} (instrumented : Webhook.Instrumented recorder tracer base handler.webhook)
    (occasion : Occasion) {request : Http.Request} (state : State σ) {review : Review}
    (posted : request.method = "POST") (path : request.path = "/")
    (fits : request.body.length ≤ maxBodyBytes) (decoded : Review.decode request.body = .ok review) :
    let served := handler.serve occasion request state
    (handler.reviewed? request review state = none →
      served.answer = .error Instant.overflow ∧ Quietly state served.state) ∧
    ∀ context begun, handler.reviewed? request review state = some (context, begun) →
      ∃ response answer account records, served.answer = .ok response ∧
        Json.parse (Text.utf8Bytes response.body) = .ok answer ∧
        account.Agrees review answer.json (handler.webhook.review context review begun).outcome
          response.status ∧
        (account.measurement.success = true ↔ response.status = 200) ∧
        account.measurement.kind = base.kind ∧ account.verdict.kind = base.kind ∧
        served.state.telemetry.journal = state.telemetry.journal ++ records ∧
        handler.Chronicle recorder tracer base review account records := by
  refine ⟨serve_of_overflow posted path fits decoded, fun context begun reviewed => ?_⟩
  -- the webhook tells its account of the outcome, and the gateway answers from the same outcome
  obtain ⟨milliseconds, span, lines, ends, logic, told, writes⟩ :=
    instrumented.writes context review begun
  let ran := handler.webhook.review context review begun
  have kind (response : Response) (done : ran.outcome = .done response) :
      response.kind = base.kind :=
    (Webhook.kind_of_review done).trans instrumented.kind_eq
  obtain ⟨response, answer, answered, parsed, agrees⟩ := handler.conclude_agrees occasion context
    (handler.opened request state).1 milliseconds kind
  obtain ⟨gateway, concluded, written⟩ := handler.conclude_records occasion context
    (handler.opened request state).1 review ran
  have served := serve_of_reviewed occasion posted path fits decoded reviewed
  obtain ⟨before, before_quiet, began⟩ := quietly_reviewed reviewed
  obtain ⟨behind, behind_quiet, closes⟩ := quietly_closed (handler.outer? request state)
    (handler.opened request state).1 (handler.conclude occasion context
      (handler.opened request state).1 review ran)
  refine ⟨response, answer, base.account review milliseconds ran.outcome, _, ?_, parsed, agrees,
    agrees.success_iff, rfl, Webhook.kind_verdict .., ?_,
    .intro before_quiet behind_quiet logic told written⟩
  · rw [served, answer_closed, answered]
  · calc (handler.serve occasion request state).state.telemetry.journal
      _ = (handler.conclude occasion context (handler.opened request state).1 review
            ran).state.telemetry.journal ++ behind := by rw [served, closes]
      _ = ran.state.telemetry.journal ++ gateway ++ behind := by rw [concluded]; rfl
      _ = _ := by
        rw [writes, began]
        simp only [List.append_assoc]

/-- The handler of a webhook that breaks off, with a trace around it and a log. -/
def observed : Handler Unit where
  webhook := .traced (.recording ∅) breaking.webhook
  logger := .events ∅
  tracer := .silent
  timeout := none

/-- The measurement is without success, the trace ends with an error, and there is one line. -/
theorem observed_telemetry_agrees : ∃ base review response account records message,
    (observed.serve ⟨"1", "1ms"⟩ namelessRequest ⟨⟨0, 1, [], ()⟩, {}⟩).answer = .ok response ∧
    response.status = 500 ∧ account.measurement.success = false ∧
    account.verdict = .mutated false ∧ account.notes = [.ended (some message)] ∧
    account.levels = [.error] ∧
    (observed.serve ⟨"1", "1ms"⟩ namelessRequest ⟨⟨0, 1, [], ()⟩, {}⟩).state.telemetry.journal =
      records ∧ observed.Chronicle .recording (.recording ∅) base review account records := by
  obtain ⟨review, decoded, panics⟩ := breaking_panics
  obtain ⟨-, agree⟩ := @telemetry_agrees Unit observed _ _ _ (.tracedMeasurement (.mutating _))
    ⟨"1", "1ms"⟩ namelessRequest ⟨⟨0, 1, [], ()⟩, {}⟩ review rfl rfl (by decide +kernel) decoded
  obtain ⟨response, answer, account, records, answered, -, agrees, -, -, kind, journal,
    chronicle⟩ := agree _ _ rfl
  have ended (context : Context) (begun : State Unit) :
      (observed.webhook.review context review begun).outcome = .panicked "no luck" := panics _ _
  rw [ended] at agrees
  generalize status : response.status = code at agrees
  cases agrees with
  | failed _ success verdict _ notes levels =>
    refine ⟨_, review, response, account, records, _, answered, status, success, ?_, notes, levels,
      journal, chronicle⟩
    generalize account.verdict = told at kind verdict
    cases told with
    | mutated value => cases verdict; rfl
    | allowed value => cases kind

end Handler

end Admission
