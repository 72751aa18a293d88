import Admission.Telemetry.Attribute
import Admission.Telemetry.Journal

/-! Measurements of reviews: the labels they carry and what the instruments make of them. -/

set_option autoImplicit false

namespace Admission

abbrev Attributes := List (String × Attribute)

namespace Measurement

def baggage (measurement : Measurement) : Attributes :=
  [("webhook_id", .text measurement.webhook),
    ("webhook_version", .text measurement.generation.text),
    ("resource_kind", .text measurement.resourceKind),
    ("operation", .text measurement.operation.text),
    ("dry_run", .bool measurement.dryRun),
    ("success", .bool measurement.success)]
    ++ if measurement.objectNamespace = "" then []
      else [("resource_namespace", .text measurement.objectNamespace)]

end Measurement

namespace Verdict

def kind : Verdict → WebhookKind
  | .mutated _ => .mutating
  | .allowed _ => .validating

def value : Verdict → Bool
  | .mutated value | .allowed value => value

def name : Verdict → String
  | .mutated _ => "mutated"
  | .allowed _ => "allowed"

def baggage (verdict : Verdict) (measurement : Measurement) : Attributes :=
  measurement.baggage ++ [(verdict.name, .bool verdict.value)]

end Verdict

namespace Metrics

def scope : String :=
  "admission_webhook"

inductive Instrument where
  /-- How long the reviews of a kind took, in seconds. -/
  | duration (kind : WebhookKind)
  /-- How many warnings they gave. -/
  | warnings
  deriving DecidableEq

namespace Instrument

def name : Instrument → String
  | .duration kind => "admission_webhook_" ++ kind.text ++ "_review_duration_seconds"
  | .warnings => "admission_webhook_review_warnings_total"

def unit : Instrument → String
  | .duration _ => "s"
  | .warnings => ""

end Instrument

/-- The sum of two numbers that are not negative. -/
def plus (x y : Binary64) : Binary64 :=
  let (xNum, xDen) := x.ratio
  let (yNum, yDen) := y.ratio
  (Binary64.ofRatio false (xNum * yDen + yNum * xDen) (xDen * yDen)).getD x

/-- Whole seconds and the fraction are rounded each by itself, then their sum. -/
def seconds (milliseconds : Nat) : Binary64 :=
  let fraction := Binary64.ofRatio false (milliseconds % 1000) 1000
  plus (.ofInteger (milliseconds / 1000 : Nat)) (fraction.getD (.zero false))

/-- Counts start again at 64 bits. -/
inductive Value where
  | histogram (count : UInt64) (sum : Binary64)
  | counter (count : UInt64)

def Value.combine : Value → Value → Value
  | .histogram count sum, .histogram more amount => .histogram (count + more) (plus sum amount)
  | .counter count, .counter more => .counter (count + more)
  | value, _ => value

structure Point where
  instrument : Instrument
  attributes : Attributes
  value : Value

def points (measurement : Measurement) (verdict : Verdict) : List Point :=
  ⟨.duration verdict.kind, verdict.baggage measurement,
      .histogram 1 (seconds measurement.milliseconds)⟩
    :: if measurement.warnings = 0 then []
      else [⟨.warnings, measurement.baggage ++ [("webhook_type", .text measurement.kind.text)],
        .counter (.ofNat measurement.warnings)⟩]

def gather (points : List Point) (point : Point) : List Point :=
  match points with
  | [] => [point]
  | first :: rest =>
    if first.instrument = point.instrument ∧ first.attributes = point.attributes then
      { first with value := first.value.combine point.value } :: rest
    else first :: gather rest point

def ofJournal (journal : List Record) : List Point :=
  journal.foldl
    (fun all record =>
      match record with
      | .counted measurement verdict => (points measurement verdict).foldl gather all
      | _ => all)
    []

end Metrics

end Admission
