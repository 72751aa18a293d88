import Admission.Kubernetes.Kind

/-! Objects of a known kind. -/

set_option autoImplicit false

namespace Admission

open Json (Tree)

structure ObjectMeta where
  name : Option String
  objectNamespace : Option String
  labels : Option (SortedMap String)
  annotations : Option (SortedMap String)
  others : SortedMap Tree

/-- An object whose fields, as far as they are not metadata, are kept as they are written. -/
structure Typed where
  kind : Kubernetes.Kind
  metadata : ObjectMeta
  body : SortedMap Tree

def insertOptional (members : SortedMap Tree) (name : String) (value : Option Tree) :
    SortedMap Tree :=
  match value with
  | some value => members.insert name value
  | none => members

namespace ObjectMeta

def fieldNames : List String :=
  ["annotations", "labels", "name", "namespace"]

def ofMembers (members : SortedMap Tree) : ObjectMeta where
  name := (members.find? "name").bind Tree.string?
  objectNamespace := (members.find? "namespace").bind Tree.string?
  labels := (members.find? "labels").bind Tree.stringMap?
  annotations := (members.find? "annotations").bind Tree.stringMap?
  others := members.filterKeys fun key => key ∉ fieldNames

def toTree (metadata : ObjectMeta) : Tree :=
  .object
    (insertOptional
      (insertOptional
        (insertOptional
          (insertOptional metadata.others "annotations" (metadata.annotations.map .ofStringMap))
          "labels" (metadata.labels.map .ofStringMap))
        "name" (metadata.name.map .string))
      "namespace" (metadata.objectNamespace.map .string))

end ObjectMeta

namespace Typed

def fieldNames : List String :=
  ["apiVersion", "kind", "metadata"]

def ofMembers (kind : Kubernetes.Kind) (members : SortedMap Tree) : Typed where
  kind
  metadata := .ofMembers (((members.find? "metadata").bind Tree.members?).getD ∅)
  body := members.filterKeys fun key => key ∉ fieldNames

def decode (kind : Kubernetes.Kind) (json : Json) : Except Json.Mismatch Typed :=
  (Kubernetes.decode kind.schema json).map fun tree => ofMembers kind (tree.members?.getD ∅)

def toTree (object : Typed) : Tree :=
  .object
    (((object.body.insert "apiVersion" (.string object.kind.apiVersion)).insert
      "kind" (.string object.kind.name)).insert
      "metadata" object.metadata.toTree)

def modifyField (object : Typed) (field : String) (change : Tree → Tree) : Typed :=
  match object.body.find? field with
  | some value => { object with body := object.body.insert field (change value) }
  | none => object

def setPolicy (policy : String) (container : Tree) : Tree :=
  match container.members? with
  | some members => .object (members.insert "imagePullPolicy" (.string policy))
  | none => container

def setPullPolicy? (object : Typed) (policy : String) : Option Typed :=
  if object.kind = .pod then
    some (object.modifyField "spec" fun spec => spec.modifyAt ["containers"] fun tree =>
      match tree.items? with
      | some containers => .array (containers.map (setPolicy policy))
      | none => tree)
  else none

/-- How many replicas a deployment asks for: one if it does not say. -/
def replicas? (object : Typed) : Option Int :=
  if object.kind = .deployment then
    match (object.body.find? "spec").bind (·.json.member? "replicas") with
    | some (.number (.integer count _)) => some count
    | _ => some 1
  else none

end Typed

end Admission
