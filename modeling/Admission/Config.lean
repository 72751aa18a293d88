import Admission.CommandLine
import Admission.SocketAddress
import Admission.SortedMap

/-! The configuration of the server, from a command line. -/

set_option autoImplicit false

namespace Admission

inductive LogFormat where
  | text
  | json
  | otlp
  deriving DecidableEq

namespace LogFormat

def all : List LogFormat :=
  [.text, .json, .otlp]

def name : LogFormat → String
  | .text => "text"
  | .json => "json"
  | .otlp => "otlp"

def unknown : String :=
  "Unknown log message format"

def ofName (name : String) : Except String LogFormat :=
  match all.find? (·.name = name) with
  | some format => .ok format
  | none => .error unknown

end LogFormat

structure Config where
  address : SocketAddress
  /-- The files of the certificate and of its key. -/
  tls : Option (String × String)
  metrics : Bool
  logLevel : String
  logFormat : LogFormat
  logNoColor : Bool
  webhookId : String
  labels : SortedMap String
  /-- The labels that are required. -/
  requiredLabels : List String
  /-- Seconds that a review may take. -/
  timeout : Option Nat

inductive ConfigError where
  | address
  | tlsPair
  | emptyId
  | label (text : String)
  | timeout (text : String) (error : Text.NaturalError)
  deriving DecidableEq

def ConfigError.message (error : ConfigError) : String :=
  "error parsing arguments: " ++ match error with
    | .address => "invalid socket address syntax"
    | .tlsPair => "either both --cert-file and --key-file must be provided, or neither"
    | .emptyId => "--webhook-id can\x27t be empty"
    | .label text => "label \x27" ++ text ++ "\x27 is not in the KEY=VALUE format"
    | .timeout text error => "invalid timeout \x27" ++ text ++ "\x27: " ++ error.message

namespace Config

def parameters : List Parameter :=
  [⟨"log-level", "ADMISSION_WEBHOOK_LOG_LEVEL",
      .single ["trace", "debug", "info", "warn", "error"]⟩,
    ⟨"log-fmt", "ADMISSION_WEBHOOK_LOG_FMT", .single (LogFormat.all.map LogFormat.name)⟩,
    ⟨"log-no-color", "NO_COLOR", .flag⟩,
    ⟨"addr", "ADMISSION_WEBHOOK_BIND_ADDRESS", .single []⟩,
    ⟨"port", "ADMISSION_WEBHOOK_PORT", .single []⟩,
    ⟨"cert-file", "ADMISSION_WEBHOOK_CERT_FILE", .single []⟩,
    ⟨"key-file", "ADMISSION_WEBHOOK_KEY_FILE", .single []⟩,
    ⟨"enable-metrics", "ADMISSION_WEBHOOK_ENABLE_METRICS", .flag⟩,
    ⟨"webhook-id", "ADMISSION_WEBHOOK_ID", .single []⟩,
    ⟨"label", "ADMISSION_WEBHOOK_LABELS", .many⟩,
    ⟨"required-label", "ADMISSION_WEBHOOK_REQUIRED_LABELS", .many⟩,
    ⟨"timeout", "ADMISSION_WEBHOOK_TIMEOUT", .single []⟩]

def value? (values : CommandLine.Values) (name : String) : Option String :=
  (values.lookup name).bind List.head?

def valueD (values : CommandLine.Values) (name default : String) : String :=
  (value? values name).getD default

/-- A label: a key, which may not be empty, and a value behind the first equals sign. -/
def label? (text : String) : Option (String × String) :=
  match CommandLine.splitEquals text.toList with
  | ([], _) | (_, none) => none
  | (key, some value) => some (String.ofList key, String.ofList value)

def readLabels (texts : List String) : Except ConfigError (List (String × String)) :=
  match texts with
  | [] => .ok []
  | text :: texts =>
    match label? text with
    | none => .error (.label text)
    | some label => (readLabels texts).map (label :: ·)

def readTimeout (text : Option String) : Except ConfigError (Option Nat) :=
  match text with
  | none => .ok none
  | some text =>
    match Text.readNatural text with
    | .ok seconds => .ok (some seconds)
    | .error error => .error (.timeout text error)

def readTls (certificate key : String) : Except ConfigError (Option (String × String)) :=
  if (certificate = "") ≠ (key = "") then .error .tlsPair
  else .ok (if certificate = "" then none else some (certificate, key))

/-- The configuration that values of the parameters make. Of several faults the first counts, in
the order of the steps here. -/
def ofValues (values : CommandLine.Values) : Except ConfigError Config := do
  let valueD := valueD values
  let address ← match SocketAddress.read? (valueD "addr" "0.0.0.0" ++ ":" ++ valueD "port" "8080") with
    | some address => pure address
    | none => throw .address
  let tls ← readTls (valueD "cert-file" "") (valueD "key-file" "")
  let webhookId := valueD "webhook-id" "labels"
  if webhookId = "" then throw .emptyId
  let labels ← readLabels ((values.lookup "label").getD [])
  let timeout ← readTimeout (value? values "timeout")
  return {
    address
    tls
    metrics := valueD "enable-metrics" "false" = "true"
    logLevel := valueD "log-level" "info"
    logFormat := (LogFormat.all.find? (·.name = valueD "log-fmt" "text")).getD .text
    logNoColor := valueD "log-no-color" "false" = "true"
    webhookId
    labels := .ofList labels
    requiredLabels := (values.lookup "required-label").getD []
    timeout }

end Config

end Admission
