import Admission.Json.Patch

/-! Application of JSON patches, and patches read from JSON. -/

set_option autoImplicit false

namespace Admission.Json

def alter? (json : Json) (step : String) (change : Json → Option Json) : Option Json :=
  match json with
  | .object members => do
    let value ← Entries.find? members step
    return .object (Entries.insert members step (← change value))
  | .array items => do
    let index ← Pointer.index? step
    let item ← items[index]?
    return .array (items.set index (← change item))
  | _ => none

namespace Patch

/-- Put a value behind a step: in place of a member, or in front of an item. -/
def put? (json : Json) (step : String) (value : Json) : Option Json :=
  match json with
  | .object members => some (.object (Entries.insert members step value))
  | .array items =>
    if step = "-" then some (.array (items ++ [value]))
    else do
      let index ← Pointer.index? step
      if index ≤ items.length then some (.array (items.insertIdx index value)) else none
  | _ => none

def drop? (json : Json) (step : String) : Option Json :=
  match json with
  | .object members =>
    if Entries.contains members step then some (.object (Entries.erase members step)) else none
  | .array items => do
    let index ← Pointer.index? step
    if index < items.length then some (.array (items.eraseIdx index)) else none
  | _ => none

/-- The root itself can be added, but not removed. -/
def add? (value json : Json) : Pointer → Option Json
  | [] => some value
  | [step] => put? json step value
  | step :: path => json.alter? step fun json => add? value json path

def remove? (json : Json) : Pointer → Option Json
  | [] => none
  | [step] => drop? json step
  | step :: path => json.alter? step fun json => remove? json path

def replace? (value json : Json) : Pointer → Option Json
  | [] => some value
  | step :: path => json.alter? step fun json => replace? value json path

def Operation.run? (operation : Operation) (json : Json) : Option Json :=
  match operation with
  | .add path value => add? value json path
  | .remove path => remove? json path
  | .replace path value => replace? value json path

def run? (patch : Patch) (json : Json) : Option Json :=
  patch.foldlM (fun json operation => operation.run? json) json

/-- Members that an operation has no use for are ignored. -/
def Operation.ofJson? (json : Json) : Option Operation := do
  let name ← (← json.member? "op").string?
  let path ← Pointer.ofText? (← (← json.member? "path").string?)
  match name with
  | "add" => return .add path (← json.member? "value")
  | "remove" => return .remove path
  | "replace" => return .replace path (← json.member? "value")
  | _ => none

def ofJson? : Json → Option Patch
  | .array items => items.mapM Operation.ofJson?
  | _ => none

end Patch

end Admission.Json
