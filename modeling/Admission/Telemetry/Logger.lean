import Admission.Json.Printer
import Admission.Telemetry.Journal

/-! Loggers write lines that carry fixed values. -/

set_option autoImplicit false

namespace Admission

inductive Logger where
  | silent
  /-- Lines are events, their values one field of JSON text. -/
  | events (values : SortedMap Json)
  /-- Lines are kept as they are. -/
  | recording (values : SortedMap Json)

namespace Logger

def withValues (logger : Logger) (values : SortedMap Json) : Logger :=
  match logger with
  | .silent => .silent
  | .events own => .events (own.overlay values)
  | .recording own => .recording (own.overlay values)

def withContext (logger : Logger) (context : Context) : Logger :=
  logger.withValues context.values

def log (logger : Logger) (level : Level) (message : String) (scope : Option SpanId)
    (telemetry : Telemetry) : Telemetry :=
  match logger with
  | .silent => telemetry
  | .events values =>
    let fields := if values.isEmpty then [] else [("fields", .string (Json.ofMap values).render)]
    telemetry.note (.event level message fields scope)
  | .recording values => telemetry.note (.line level message values)

def report {σ : Type} (logger : Logger) (context : Context) (level : Level) (message : String)
    (state : State σ) : State σ :=
  { state with
    telemetry := (logger.withContext context).log level message context.scope state.telemetry }

end Logger

end Admission
