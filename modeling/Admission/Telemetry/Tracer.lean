import Admission.Telemetry.Logger

/-! Tracers open a span for a review and say in it what happens. -/

set_option autoImplicit false

namespace Admission

inductive Tracer where
  | silent
  /-- Traces are spans with these attributes. -/
  | spans (values : SortedMap Json)
  /-- Traces are kept as they are told. -/
  | recording (values : SortedMap Json)

namespace Tracer

def withValues (tracer : Tracer) (values : SortedMap Json) : Tracer :=
  match tracer with
  | .silent => .silent
  | .spans own => .spans (own.overlay values)
  | .recording own => .recording (own.overlay values)

def start (tracer : Tracer) (context : Context) (name : String) (telemetry : Telemetry) :
    Context × Telemetry :=
  match tracer with
  | .silent => (context, telemetry)
  | .spans values =>
    let (span, telemetry) :=
      telemetry.openSpan "webhook_review" context.trace [("otel.name", .string name)]
    (context.withTrace span, telemetry.note (.spanAttributes span values))
  | .recording values => (context, telemetry.note (.trace (.opened name values)))

def addValues (tracer : Tracer) (context : Context) (values : SortedMap Json)
    (telemetry : Telemetry) : Telemetry :=
  match tracer with
  | .silent => telemetry
  | .spans _ =>
    match context.trace with
    | some span => telemetry.note (.spanAttributes span values)
    | none => telemetry
  | .recording _ => telemetry.note (.trace (.values values))

def addEvent (tracer : Tracer) (context : Context) (name : String) (values : SortedMap Json)
    (telemetry : Telemetry) : Telemetry :=
  match tracer with
  | .silent => telemetry
  | .spans _ =>
    telemetry.note (.event .info name
      [("event", .string name), ("fields", .string (Json.ofMap values).render)] context.trace)
  | .recording _ => telemetry.note (.trace (.event name values))

def status (error : Option String) : Fields :=
  match error with
  | some error => [("otel.status_code", .string "ERROR"), ("otel.status_message", .string error)]
  | none => [("otel.status_code", .string "OK")]

def finish (tracer : Tracer) (context : Context) (error : Option String) (telemetry : Telemetry) :
    Telemetry :=
  match tracer with
  | .silent => telemetry
  | .spans _ =>
    match context.trace with
    | some span => (telemetry.note (.spanRecorded span (status error))).note (.spanClosed span)
    | none => telemetry
  | .recording _ => telemetry.note (.trace (.ended error))

/-- The id of the trace that the context belongs to, empty if there is none. -/
def traceId (tracer : Tracer) (context : Context) (telemetry : Telemetry) : String :=
  match tracer with
  | .silent => ""
  | .spans _ => if context.trace.isSome then telemetry.traceId.getD "" else ""
  | .recording _ => "recorded-trace"

def announce (tracer : Tracer) (name : String) (telemetry : Telemetry) : Telemetry :=
  match tracer with
  | .silent | .spans _ => telemetry
  | .recording _ => telemetry.note (.trace (.handler name))

def openRequest (tracer : Tracer) (name method path : String) (telemetry : Telemetry) :
    Option SpanId × Telemetry :=
  match tracer with
  | .silent | .recording _ => (none, telemetry)
  | .spans values =>
    let (span, telemetry) := telemetry.openSpan "http_request" none
      [("otel.name", .string name), ("method", .string method), ("path", .string path)]
    (some span, telemetry.note (.spanAttributes span values))

end Tracer

end Admission
