/-! Command lines: long parameters, each of which may also be set by a variable of the
environment. -/

set_option autoImplicit false

namespace Admission

inductive Parameter.Arity where
  | flag
  /-- One value, out of some if there is a choice. -/
  | single (choices : List String)
  /-- Values with commas between them, any number of times. -/
  | many

structure Parameter where
  name : String
  environment : String
  arity : Parameter.Arity

namespace CommandLine

inductive Stop where
  | invalidValue
  | unknownArgument
  | repeated
  | tooManyValues
  | help
  | version
  deriving DecidableEq

abbrev Values := List (String × List String)

def splitCommas (text : List Char) (part : List Char) : List String :=
  match text with
  | [] => [String.ofList part.reverse]
  | c :: rest =>
    if c = ',' then String.ofList part.reverse :: splitCommas rest []
    else splitCommas rest (c :: part)

def valuesOf (parameter : Parameter) (given : String) : Except Stop (List String) :=
  match parameter.arity with
  | .flag => if given = "true" ∨ given = "false" then .ok [given] else .error .invalidValue
  | .single choices =>
    if choices.isEmpty || choices.contains given then .ok [given] else .error .invalidValue
  | .many => .ok (splitCommas given.toList [])

/-- Take up a parameter that was given, with its text if there is one. All but those of many values
are given once. -/
def take (parameter : Parameter) (given : Option String) (values : Values) : Except Stop Values :=
  let before := values.lookup parameter.name
  match parameter.arity, given with
  | .flag, _ =>
    if before.isSome then .error .repeated else .ok ((parameter.name, ["true"]) :: values)
  | _, none => .error .invalidValue
  | .single _, some given =>
    if before.isSome then .error .repeated
    else (valuesOf parameter given).map fun own => (parameter.name, own) :: values
  | .many, some given =>
    (valuesOf parameter given).map fun own => (parameter.name, before.getD [] ++ own) :: values

structure Reading where
  values : Values := []
  pending : Option (Parameter × Option String) := none

namespace Reading

def settle (reading : Reading) : Except Stop Reading :=
  match reading.pending with
  | none => .ok reading
  | some (parameter, given) => (take parameter given reading.values).map fun values => { values }

def give (reading : Reading) (parameter : Parameter) (given : Option String) :
    Except Stop Reading := do
  let reading ← reading.settle
  return { values := ← take parameter given reading.values }

def await (reading : Reading) (parameter : Parameter) : Except Stop Reading := do
  let reading ← reading.settle
  return { reading with pending := some (parameter, none) }

def stop (reading : Reading) (stop : Stop) : Except Stop Reading := do
  let _ ← reading.settle
  .error stop

end Reading

def splitEquals (text : List Char) : List Char × Option (List Char) :=
  match text with
  | [] => ([], none)
  | c :: rest =>
    if c = '=' then ([], some rest)
    else
      let (name, value) := splitEquals rest
      (c :: name, value)

def readLong (parameters : List Parameter) (reading : Reading) (argument : List Char) :
    Except Stop Reading :=
  let (name, given) := splitEquals argument
  let name := String.ofList name
  let given := given.map String.ofList
  let alone (read : Except Stop Reading) : Except Stop Reading :=
    if given.isSome then .error .tooManyValues else read
  match parameters.find? (·.name = name) with
  | some parameter =>
    match parameter.arity, given with
    | .flag, _ => alone (reading.give parameter none)
    | _, some given => reading.give parameter (some given)
    | _, none => reading.await parameter
  | none =>
    if name = "help" then alone (reading.stop .help)
    else if name = "version" then alone (reading.stop .version)
    else .error .unknownArgument

/-- Read arguments. One that starts with a dash is no value; what nothing waits for is unknown, and
so is all behind two dashes alone. -/
def readArguments (parameters : List Parameter) (arguments : List String) (reading : Reading) :
    Except Stop Reading :=
  match arguments with
  | [] => reading.settle
  | argument :: rest =>
    match argument.toList with
    | ['-', '-'] => if rest.isEmpty then reading.settle else .error .unknownArgument
    | '-' :: '-' :: long => do
      readArguments parameters rest (← readLong parameters reading long)
    | '-' :: 'h' :: _ => reading.stop .help
    | '-' :: 'V' :: _ => reading.stop .version
    | '-' :: _ :: _ => .error .unknownArgument
    | _ =>
      match reading.pending with
      | some (parameter, none) =>
        readArguments parameters rest { reading with pending := some (parameter, some argument) }
      | _ => .error .unknownArgument

/-- Parameters that were not given may be set in the environment. -/
def readEnvironment (environment : String → Option String) (parameters : List Parameter)
    (values : Values) : Except Stop Values :=
  match parameters with
  | [] => .ok values
  | parameter :: rest => do
    let values ←
      match values.lookup parameter.name, environment parameter.environment with
      | none, some given => do pure ((parameter.name, ← valuesOf parameter given) :: values)
      | _, _ => pure values
    readEnvironment environment rest values

def read (parameters : List Parameter) (environment : String → Option String)
    (arguments : List String) : Except Stop Values := do
  let reading ← readArguments parameters arguments {}
  readEnvironment environment parameters reading.values

end CommandLine

end Admission
