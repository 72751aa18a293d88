import Admission.Gateway.Certificate
import Admission.Gateway.Server

/-! The command line of the server. It reads its parameters from the arguments and the environment,
and then answers requests that come as lines of standard input: a method, a target and a body, with
a blank after each of the first two. The answer is a line too, the status and the body. -/

set_option autoImplicit false

namespace Admission.Program

def complain (message : String) : IO Unit :=
  IO.eprintln ("Error: " ++ message)

def environment : IO (String → Option String) := do
  let set ← Config.parameters.mapM fun parameter =>
    return (parameter.environment, ← IO.getEnv parameter.environment)
  return fun name => (set.lookup name).join

def readFile (path : String) : IO (Except FileError Bytes) := do
  try
    return .ok (← IO.FS.readBinFile path).toList
  catch
    | .noFileOrDirectory .. => return .error .notFound
    | .inappropriateType .. => return .error .notADirectory
    | error => throw error

def checkCertificate (certificate key : String) : IO Bool := do
  let certificateBytes ← readFile certificate
  let keyBytes ← readFile key
  let files (path : String) := if path = certificate then certificateBytes else keyBytes
  match Certificate.load files certificate key with
  | .ok _ => return true
  | .error error =>
    complain (Certificate.failure certificate key error)
    return false

def requestOf (line : String) : Http.Request :=
  let (method, rest) := line.toList.span (· != ' ')
  let (target, body) := (rest.drop 1).span (· != ' ')
  { method := String.ofList method
    target := String.ofList target
    body := Text.utf8Bytes (String.ofList (body.drop 1)) }

def answerText (answer : Except String Http.Response) : String :=
  match answer with
  | .ok response => toString response.status ++ " " ++ response.body
  | .error message => "500 " ++ message

/-- Answer the lines of the input until it ends. Requests share nothing but the count of them. -/
partial def answerLines (server : Server Unit) (input output : IO.FS.Stream) (count : Nat) :
    IO Unit := do
  let line ← input.getLine
  if line.isEmpty then return
  let state : State Unit :=
    { world := { now := ← IO.monoMsNow, tokens := 0, cancelled := [], own := () }, telemetry := {} }
  let occasion : Occasion := { task := toString count, duration := "unknown" }
  let served := server.serve occasion (requestOf (line.dropEndWhile (· == '\n')).toString) state
  output.putStrLn (answerText served.answer)
  output.flush
  answerLines server input output (count + 1)

def run (config : Config) : IO UInt32 := do
  let usable ← match config.tls with
    | some (certificate, key) => checkCertificate certificate key
    | none => pure true
  if !usable then return 1
  match Server.ofConfig config with
  | .error error =>
    complain error.message
    return 1
  | .ok server =>
    answerLines server (← IO.getStdin) (← IO.getStdout) 1
    return 0

def usage : String :=
  let line (parameter : Parameter) : String :=
    let value := match parameter.arity with
      | .flag => ""
      | .single [] => " VALUE"
      | .single choices => " " ++ "|".intercalate choices
      | .many => " VALUE,..."
    "  --" ++ parameter.name ++ value ++ "  (" ++ parameter.environment ++ ")"
  "\n".intercalate (Config.parameters.map line)

def stopText : CommandLine.Stop → String
  | .invalidValue => "invalid value"
  | .unknownArgument => "unexpected argument"
  | .repeated => "the argument cannot be used multiple times"
  | .tooManyValues => "unexpected value for a flag"
  | .help => usage
  | .version => "admission-webhook 0.1.0"

end Admission.Program

open Admission in
def main (arguments : List String) : IO UInt32 := do
  match CommandLine.read Config.parameters (← Program.environment) arguments with
  | .error stop =>
    if stop = .help ∨ stop = .version then
      IO.println (Program.stopText stop)
      return 0
    IO.eprintln (Program.stopText stop)
    return 2
  | .ok values =>
    match Config.ofValues values with
    | .error error =>
      Program.complain error.message
      return 1
    | .ok config => Program.run config
