import Admission.Telemetry.Attribute
import Admission.Telemetry.Journal

/-! Spans as the journal tells of them, and how they are exported. -/

set_option autoImplicit false

namespace Admission

structure SpanEvent where
  message : String
  fields : Fields

inductive Span.Status where
  | unset
  | ok
  | error (message : String)

structure Span where
  name : String
  parent : Option SpanId
  fields : Fields
  attributes : Fields
  status : Span.Status := .unset
  events : List SpanEvent := []

namespace Span

/-- Fields by which a span says how it is to be exported. They are no attributes. -/
def directives : List String :=
  ["otel.name", "otel.status_code", "otel.status_message"]

def Status.direct (status : Status) (field : String × Json) : Status :=
  match field with
  | ("otel.status_code", .string "OK") => .ok
  | ("otel.status_code", .string "ERROR") => .error ""
  | ("otel.status_message", .string message) => .error message
  | _ => status

/-- An error in a span makes it one, if nothing else is known of it. -/
def Status.onEvent (status : Status) (level : Level) : Status :=
  match status, level with
  | .unset, .error => .error ""
  | status, _ => status

def record (span : Span) (fields : Fields) : Span :=
  { span with
    fields := span.fields ++ fields
    attributes := span.attributes ++ fields.filter fun field => !directives.contains field.1
    status := fields.foldl Status.direct span.status }

def amend (id : SpanId) (span : Span) : Record → Span
  | .spanRecorded target fields => if target = id then span.record fields else span
  | .spanAttributes target values =>
    if target = id then { span with attributes := span.attributes ++ values.entries } else span
  | .event level message fields target =>
    if target = some id then
      { span with
        events := span.events ++ [⟨message, fields⟩]
        status := span.status.onEvent level }
    else span
  | _ => span

def find? (journal : List Record) (id : SpanId) : Option Span :=
  journal.foldl
    (fun span record =>
      match span, record with
      | none, .spanOpened target name parent fields =>
        if target = id then some (Span.record { name, parent, fields := [], attributes := [] } fields)
        else none
      | none, _ => none
      | some span, record => some (span.amend id record))
    none

def closed (journal : List Record) : List SpanId :=
  journal.filterMap fun record =>
    match record with
    | .spanClosed span => some span
    | _ => none

def field? (span : Span) (name : String) : Option String :=
  (span.fields.lookup name).bind Json.string?

def exportName (span : Span) : String :=
  (span.field? "otel.name").getD span.name

end Span

structure ExportedSpan where
  name : String
  parent : Option String
  status : Span.Status
  attributes : List (String × Attribute)
  events : List (String × List (String × Attribute))

/-- What an event without a message is called when it is exported. -/
structure Exporter where
  unnamed : String

namespace Exporter

def attributes (fields : Fields) : List (String × Attribute) :=
  fields.map fun field => (field.1, Attribute.ofJson field.2)

def event (exporter : Exporter) (event : SpanEvent) : String × List (String × Attribute) :=
  (if event.message = "" then exporter.unnamed else event.message, attributes event.fields)

def span (exporter : Exporter) (journal : List Record) (span : Span) : ExportedSpan where
  name := span.exportName
  parent := span.parent.bind fun parent =>
    if (Span.closed journal).contains parent then (Span.find? journal parent).map Span.exportName
    else none
  status := span.status
  attributes := attributes span.attributes
  events := span.events.map exporter.event

def spans (exporter : Exporter) (journal : List Record) : List ExportedSpan :=
  (Span.closed journal).filterMap fun id =>
    (Span.find? journal id).map fun span => exporter.span journal span

end Exporter

end Admission
