import Admission.Webhook.Basic

/-! What loggers, tracers and recorders write into the journal. They only ever add to its end, and
spans that are opened are new. -/

set_option autoImplicit false

namespace Admission

def Record.bound? : Record → Option SpanId
  | .spanOpened span _ _ _ | .spanClosed span => some span
  | _ => none

def Record.isLine : Record → Bool
  | .event .. | .line .. => true
  | _ => false

def Record.isMeasurement : Record → Bool
  | .measured .. | .counted .. => true
  | _ => false

def Record.opensTrace : Record → Bool
  | .trace (.opened ..) | .spanOpened .. => true
  | _ => false

def Record.endsTrace : Record → Bool
  | .trace (.ended _) | .spanClosed _ => true
  | _ => false

theorem Record.bound?_of_isLine {record : Record} (line : record.isLine = true) :
    record.bound? = none := by
  cases record <;> first | rfl | cases line

namespace Telemetry

def tell (telemetry : Telemetry) (records : List Record) : Telemetry :=
  { telemetry with journal := telemetry.journal ++ records }

@[simp]
theorem tell_nil (telemetry : Telemetry) : telemetry.tell [] = telemetry := by
  simp only [tell, List.append_nil]

@[simp]
theorem tell_tell (telemetry : Telemetry) (records more : List Record) :
    (telemetry.tell records).tell more = telemetry.tell (records ++ more) := by
  simp only [tell, List.append_assoc]

def Logs (before after : Telemetry) : Prop :=
  ∃ records : List Record, (∀ record ∈ records, record.isLine = true) ∧ after = before.tell records

namespace Logs

variable {first second third : Telemetry}

theorem refl (telemetry : Telemetry) : Logs telemetry telemetry :=
  ⟨[], by simp, by rw [tell_nil]⟩

theorem note (telemetry : Telemetry) {record : Record} (line : record.isLine = true) :
    Logs telemetry (telemetry.note record) :=
  ⟨[record], by simpa using line, rfl⟩

theorem trans (one : Logs first second) (other : Logs second third) : Logs first third := by
  obtain ⟨records, lines, rfl⟩ := one
  obtain ⟨more, more_lines, rfl⟩ := other
  refine ⟨records ++ more, fun record mem => ?_, tell_tell first records more⟩
  rcases List.mem_append.1 mem with mem | mem
  · exact lines record mem
  · exact more_lines record mem

end Logs

/-- The records were added to the journal, and the spans they open and close were new. -/
structure Grows (before after : Telemetry) (records : List Record) : Prop where
  journal : after.journal = before.journal ++ records
  spans : before.spans ≤ after.spans
  new : ∀ record ∈ records, ∀ span, record.bound? = some span →
    before.spans ≤ span ∧ span < after.spans

theorem Grows.of_logs {before after : Telemetry} {records : List Record}
    (lines : ∀ record ∈ records, record.isLine = true) (eq : after = before.tell records) :
    Grows before after records := by
  subst eq
  refine ⟨rfl, Nat.le_refl _, fun record mem span bound => ?_⟩
  rw [Record.bound?_of_isLine (lines record mem)] at bound
  cases bound

theorem Grows.trans {first second third : Telemetry} {records more : List Record}
    (one : Grows first second records) (other : Grows second third more) :
    Grows first third (records ++ more) := by
  constructor
  case journal => rw [other.journal, one.journal, List.append_assoc]
  case spans => exact Nat.le_trans one.spans other.spans
  case new =>
    intro record mem span bound
    rcases List.mem_append.1 mem with mem | mem
    · have ⟨low, high⟩ := one.new record mem span bound
      exact ⟨low, Nat.lt_of_lt_of_le high other.spans⟩
    · have ⟨low, high⟩ := other.new record mem span bound
      exact ⟨Nat.le_trans one.spans low, high⟩

/-- What is told last may close a span that was new before. -/
theorem Grows.tell {before after : Telemetry} {records more : List Record}
    (grows : Grows before after records)
    (new : ∀ record ∈ more, ∀ span, record.bound? = some span →
      before.spans ≤ span ∧ span < after.spans) :
    Grows before (after.tell more) (records ++ more) := by
  constructor
  case journal => rw [Telemetry.tell, grows.journal, List.append_assoc]
  case spans => exact grows.spans
  case new =>
    intro record mem span bound
    rcases List.mem_append.1 mem with mem | mem
    · exact grows.new record mem span bound
    · exact new record mem span bound

end Telemetry

theorem Logger.logs_report {σ : Type} (logger : Logger) (context : Context) (level : Level)
    (message : String) (state : State σ) :
    state.telemetry.Logs (logger.report context level message state).telemetry := by
  rw [report]
  cases logger.withContext context with
  | silent => exact .refl _
  | events values => exact .note _ rfl
  | recording values => exact .note _ rfl

theorem State.logs_remarks {σ : Type} (state : State σ) (context : Context)
    (remarks : List Remark) : state.telemetry.Logs (state.remarks context remarks).telemetry := by
  induction remarks generalizing state with
  | nil => exact .refl _
  | cons remark remarks ih => exact .trans (.note _ rfl) (ih (state.remark context remark))

namespace Tracer

def values : Tracer → SortedMap Json
  | .silent => ∅
  | .spans values | .recording values => values

def traces : Tracer → Nat
  | .silent => 0
  | .spans _ | .recording _ => 1

def spanTells (parent : Option SpanId) (span : SpanId) : TraceNote → List Record
  | .opened name values =>
    [.spanOpened span "webhook_review" parent [("otel.name", .string name)],
      .spanAttributes span values]
  | .values values => [.spanAttributes span values]
  | .event name values =>
    [.event .info name [("event", .string name), ("fields", .string (Json.ofMap values).render)]
      (some span)]
  | .ended error => [.spanRecorded span (status error), .spanClosed span]
  | .handler _ => []

def tells (tracer : Tracer) (parent : Option SpanId) (span : SpanId) (note : TraceNote) :
    List Record :=
  match tracer with
  | .silent => []
  | .spans _ => spanTells parent span note
  | .recording _ => [.trace note]

/-- A context in which a tracer goes on with a span. -/
def On (tracer : Tracer) (context : Context) (span : SpanId) : Prop :=
  ∀ values, tracer = .spans values → context.trace = some span

variable (tracer : Tracer) (context : Context) (telemetry : Telemetry)

theorem on_start (name : String) :
    tracer.On (tracer.start context name telemetry).1 telemetry.spans := by
  intro values eq
  subst eq
  rfl

theorem start_tells (name : String) :
    (tracer.start context name telemetry).2.journal = telemetry.journal ++
        tracer.tells context.trace telemetry.spans (.opened name tracer.values) ∧
      telemetry.spans ≤ (tracer.start context name telemetry).2.spans ∧
      ∀ values, tracer = .spans values →
        telemetry.spans < (tracer.start context name telemetry).2.spans := by
  cases tracer with
  | silent => exact ⟨(List.append_nil _).symm, Nat.le_refl _, nofun⟩
  | spans values => exact ⟨List.append_assoc .., Nat.le_succ _, fun _ _ => Nat.lt_succ_self _⟩
  | recording values => exact ⟨rfl, Nat.le_refl _, nofun⟩

variable {tracer context} {span : SpanId}

theorem addValues_tells (on : tracer.On context span) (parent : Option SpanId)
    (values : SortedMap Json) :
    tracer.addValues context values telemetry =
      telemetry.tell (tracer.tells parent span (.values values)) := by
  cases tracer with
  | silent => exact (telemetry.tell_nil).symm
  | spans own => simp only [addValues, on own rfl]; rfl
  | recording own => rfl

theorem addEvent_tells (on : tracer.On context span) (parent : Option SpanId) (name : String)
    (values : SortedMap Json) :
    tracer.addEvent context name values telemetry =
      telemetry.tell (tracer.tells parent span (.event name values)) := by
  cases tracer with
  | silent => exact (telemetry.tell_nil).symm
  | spans own => simp only [addEvent, on own rfl]; rfl
  | recording own => rfl

theorem finish_tells (on : tracer.On context span) (parent : Option SpanId)
    (error : Option String) :
    tracer.finish context error telemetry =
      telemetry.tell (tracer.tells parent span (.ended error)) := by
  cases tracer with
  | silent => exact (telemetry.tell_nil).symm
  | spans own =>
    simp only [finish, on own rfl]
    exact Telemetry.tell_tell telemetry [_] [_]
  | recording own => rfl

/-- A tracer opens and closes no span but that of its trace, and only if it tells of spans. -/
theorem eq_of_mem_tells {parent : Option SpanId} {note : TraceNote} {record : Record}
    (mem : record ∈ tracer.tells parent span note) {other : SpanId}
    (bound : record.bound? = some other) : other = span ∧ ∃ values, tracer = .spans values := by
  cases tracer with
  | silent => cases mem
  | spans values =>
    refine ⟨?_, values, rfl⟩
    cases note <;> simp only [tells, spanTells, List.mem_cons, List.not_mem_nil, or_false] at mem
    case opened => rcases mem with rfl | rfl <;> cases bound; rfl
    case values => subst mem; cases bound
    case event => subst mem; cases bound
    case ended => rcases mem with rfl | rfl <;> cases bound; rfl
  | recording values =>
    cases List.mem_singleton.1 mem
    cases bound

theorem eq_of_mem_flatMap_tells {parent : Option SpanId} {notes : List TraceNote} {record : Record}
    (mem : record ∈ notes.flatMap (tracer.tells parent span)) {other : SpanId}
    (bound : record.bound? = some other) : other = span ∧ ∃ values, tracer = .spans values := by
  obtain ⟨note, -, told⟩ := List.mem_flatMap.1 mem
  exact eq_of_mem_tells told bound

end Tracer

namespace Recorder

def calls : Recorder → Nat
  | .silent => 0
  | .instruments | .recording => 1

def tells (recorder : Recorder) (measurement : Measurement) (verdict : Verdict) : List Record :=
  match recorder with
  | .silent => []
  | .instruments => [.counted measurement verdict]
  | .recording => [.measured measurement verdict]

theorem record_tells (recorder : Recorder) (measurement : Measurement) (verdict : Verdict)
    (telemetry : Telemetry) :
    recorder.record measurement verdict telemetry =
      telemetry.tell (recorder.tells measurement verdict) := by
  cases recorder with
  | silent => exact (telemetry.tell_nil).symm
  | instruments => rfl
  | recording => rfl

theorem bound?_of_mem_tells {recorder : Recorder} {measurement : Measurement} {verdict : Verdict}
    {record : Record} (mem : record ∈ recorder.tells measurement verdict) :
    record.bound? = none := by
  cases recorder with
  | silent => cases mem
  | instruments =>
    cases List.mem_singleton.1 mem
    rfl
  | recording =>
    cases List.mem_singleton.1 mem
    rfl

end Recorder

end Admission
