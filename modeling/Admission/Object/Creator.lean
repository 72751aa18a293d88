import Admission.Json.Reader
import Admission.Object.Basic
import Admission.Review.Basic
import Admission.Yaml.Value

/-! Objects from the raw text of a review: of a type that is fixed, or of the type that a registry
knows for the kind the object declares. -/

set_option autoImplicit false

namespace Admission

inductive ObjectError where
  | empty
  /-- The text is neither JSON, for this reason, nor YAML. -/
  | malformed (error : Json.Error)
  | mismatch (cause : Json.Mismatch)
  | notAnObject (value : Json)

def ObjectError.message : ObjectError → String
  | .empty => "raw object is empty"
  | .malformed error => "error deserializing request raw object: " ++ error.message
  | .mismatch cause => "error deserializing request raw object: " ++ cause.message
  | .notAnObject value =>
    "error deserializing request raw object: expected a JSON object, got: " ++ value.render

inductive Remark where
  | notYaml
  | undecodable (kind : GroupVersionKind)
  | partialMetadata (kind : GroupVersionKind)
  | unregistered (kind : GroupVersionKind)

def Remark.message : Remark → String
  | .notYaml => "raw object is not valid YAML either"
  | .undecodable _ => "cannot decode into registered type, using unstructured object"
  | .partialMetadata _ => "registered type has partial metadata, using unstructured object"
  | .unregistered _ => "type not registered, using unstructured object"

def Remark.kind? : Remark → Option GroupVersionKind
  | .notYaml => none
  | .undecodable kind | .partialMetadata kind | .unregistered kind => some kind

inductive Registration where
  | type (kind : Kubernetes.Kind)
  /-- The kind is known to have no full metadata, so its objects stay generic. -/
  | partialMetadata

abbrev Registry := List (GroupVersionKind × Registration)

namespace Registry

def empty : Registry := []

/-- A later registration of a kind replaces the earlier one. -/
def add (registry : Registry) (name : GroupVersionKind) (registration : Registration) : Registry :=
  (name, registration) :: registry.filter fun entry => !decide (entry.1 = name)

def register (registry : Registry) (kind : Kubernetes.Kind) : Registry :=
  registry.add kind.identity (.type kind)

def registerAs (registry : Registry) (name : GroupVersionKind) (kind : Kubernetes.Kind) : Registry :=
  registry.add name (.type kind)

def registerPartialMetadata (registry : Registry) (name : GroupVersionKind) : Registry :=
  registry.add name .partialMetadata

def find? (registry : Registry) (name : GroupVersionKind) : Option Registration :=
  registry.lookup name

def contains (registry : Registry) (name : GroupVersionKind) : Bool :=
  (registry.find? name).isSome

/-- The common built-in kinds. Lists and statuses have metadata of their own. -/
def kubernetes : Registry :=
  ((Kubernetes.Kind.all.foldl register empty).registerPartialMetadata ⟨"", "v1", "List"⟩)
    |>.registerPartialMetadata ⟨"meta.k8s.io", "v1", "Status"⟩

end Registry

inductive Creator where
  | static (kind : Kubernetes.Kind)
  | dynamic (registry : Registry)

structure Creation where
  result : Except ObjectError Object
  remark : Option Remark := none

/-- The tree of a raw text, which is JSON or else YAML. -/
def decodeRaw (raw : Bytes) : Except ObjectError Json.Tree :=
  if raw.isEmpty then .error .empty
  else match Json.parse raw with
    | .ok value => .ok value
    | .error error =>
      match Yaml.parse raw with
      | some value => .ok value
      | none => .error (.malformed error)

def genericObject (tree : Json.Tree) : Except ObjectError Object :=
  match Generic.ofTree? tree with
  | some object => .ok (.generic object)
  | none => .error (.notAnObject tree.json)

namespace Creator

def ofTree (creator : Creator) (tree : Json.Tree) : Creation :=
  match creator with
  | .static kind =>
    match Typed.decode kind tree.json with
    | .ok object => ⟨.ok (.typed object), none⟩
    | .error cause => ⟨.error (.mismatch cause), none⟩
  | .dynamic registry =>
    match GroupVersionKind.ofObject? tree.json with
    | none => ⟨genericObject tree, none⟩
    | some name =>
      match registry.find? name with
      | none => ⟨genericObject tree, some (.unregistered name)⟩
      | some .partialMetadata => ⟨genericObject tree, some (.partialMetadata name)⟩
      | some (.type kind) =>
        match Typed.decode kind tree.json with
        | .ok object => ⟨.ok (.typed object), none⟩
        | .error _ => ⟨genericObject tree, some (.undecodable name)⟩

/-- The object of a raw text. With a registry, an object whose type is not known or does not fit
stays generic. -/
def newObject (creator : Creator) (raw : Bytes) : Creation :=
  match decodeRaw raw with
  | .ok tree => creator.ofTree tree
  | .error (.malformed error) => ⟨.error (.malformed error), some .notYaml⟩
  | .error error => ⟨.error error, none⟩

end Creator

end Admission
