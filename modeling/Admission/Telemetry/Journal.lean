import Admission.Context
import Admission.Review.Basic

/-! The journal of a run: log lines, spans, traces and measurements in the order in which they came.
Nothing in the journal is ever read by the work it is about. -/

set_option autoImplicit false

namespace Admission

inductive Level where
  | debug
  | info
  | warning
  | error
  deriving DecidableEq

namespace Level

def text : Level → String
  | .debug => "debug"
  | .info => "info"
  | .warning => "warning"
  | .error => "error"

def tag : Level → String
  | .debug => "DEBUG"
  | .info => "INFO"
  | .warning => "WARN"
  | .error => "ERROR"

end Level

/-- Fields in the order of their declaration. -/
abbrev Fields := List (String × Json)

structure Measurement where
  webhook : String
  kind : WebhookKind
  generation : Generation
  milliseconds : Nat
  success : Bool
  name : String
  objectNamespace : String
  resourceKind : String
  operation : Operation
  dryRun : Bool
  warnings : Nat

inductive Verdict where
  | mutated (value : Bool)
  | allowed (value : Bool)

inductive TraceNote where
  | opened (name : String) (values : SortedMap Json)
  | values (values : SortedMap Json)
  | event (name : String) (values : SortedMap Json)
  | ended (error : Option String)
  | handler (name : String)

inductive Record where
  | event (level : Level) (message : String) (fields : Fields) (span : Option SpanId)
  | spanOpened (span : SpanId) (name : String) (parent : Option SpanId) (fields : Fields)
  | spanRecorded (span : SpanId) (fields : Fields)
  /-- Attributes that only an exporter sees. -/
  | spanAttributes (span : SpanId) (values : SortedMap Json)
  | spanClosed (span : SpanId)
  | line (level : Level) (message : String) (values : SortedMap Json)
  | trace (note : TraceNote)
  | measured (measurement : Measurement) (verdict : Verdict)
  /-- A measurement that goes into the instruments. -/
  | counted (measurement : Measurement) (verdict : Verdict)

structure Telemetry where
  journal : List Record := []
  /-- Spans below this number have been opened. -/
  spans : SpanId := 0
  /-- The id under which the spans of a trace are exported, if they are. -/
  traceId : Option String := none

namespace Telemetry

def note (telemetry : Telemetry) (record : Record) : Telemetry :=
  { telemetry with journal := telemetry.journal ++ [record] }

def openSpan (telemetry : Telemetry) (name : String) (parent : Option SpanId) (fields : Fields) :
    SpanId × Telemetry :=
  let span := telemetry.spans
  (span, { telemetry.note (.spanOpened span name parent fields) with spans := span + 1 })

end Telemetry

structure State (σ : Type) where
  world : World σ
  telemetry : Telemetry

def State.note {σ : Type} (state : State σ) (record : Record) : State σ :=
  { state with telemetry := state.telemetry.note record }

end Admission
