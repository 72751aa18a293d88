import Admission.Json.Basic

/-! The names of kinds and resources: a group, a version in it, and a name. -/

set_option autoImplicit false

namespace Admission

structure GroupVersionKind where
  group : String
  version : String
  kind : String
  deriving DecidableEq, Inhabited

structure GroupVersionResource where
  group : String
  version : String
  resource : String
  deriving DecidableEq, Inhabited

def splitSlash (text : List Char) : Option (List Char × List Char) :=
  match text with
  | [] => none
  | c :: rest =>
    if c = '/' then some ([], rest)
    else (splitSlash rest).map fun (before, behind) => (c :: before, behind)

namespace GroupVersionKind

/-- An API version is a group and a version, or for the core group the version alone. -/
def ofApiVersion (apiVersion kind : String) : GroupVersionKind :=
  match splitSlash apiVersion.toList with
  | some (group, version) => ⟨String.ofList group, String.ofList version, kind⟩
  | none => ⟨"", apiVersion, kind⟩

def apiVersion (name : GroupVersionKind) : String :=
  if name.group = "" then name.version else name.group ++ "/" ++ name.version

def isTrimmed (c : Char) : Bool :=
  c = '/' || c = ' '

/-- The parts joined by slashes, without the slashes and blanks at either end. -/
def text (name : GroupVersionKind) : String :=
  let joined := (name.group ++ "/" ++ name.version ++ "/" ++ name.kind).toList
  String.ofList ((joined.dropWhile isTrimmed).reverse.dropWhile isTrimmed).reverse

def ofObject? (object : Json) : Option GroupVersionKind :=
  match (object.member? "apiVersion").bind Json.string?, (object.member? "kind").bind Json.string? with
  | some apiVersion, some kind => some (ofApiVersion apiVersion kind)
  | _, _ => none

def toJson (name : GroupVersionKind) : Json :=
  .object [("group", .string name.group), ("version", .string name.version),
    ("kind", .string name.kind)]

end GroupVersionKind

namespace GroupVersionResource

def text (name : GroupVersionResource) : String :=
  name.group ++ "/" ++ name.version ++ "/" ++ name.resource

def toJson (name : GroupVersionResource) : Json :=
  .object [("group", .string name.group), ("version", .string name.version),
    ("resource", .string name.resource)]

end GroupVersionResource

end Admission
