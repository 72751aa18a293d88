import Admission.Object.Generic
import Admission.Object.Typed

/-! The objects that are mutated and validated, typed or generic, with their metadata in common. -/

set_option autoImplicit false

namespace Admission

inductive Object where
  | typed (object : Typed)
  | generic (object : Generic)

namespace Object

def toTree : Object → Json.Tree
  | .typed object => object.toTree
  | .generic object => object.toTree

def toJson (object : Object) : Json :=
  object.toTree.json

def name : Object → Option String
  | .typed object => object.metadata.name
  | .generic object => object.name

def objectNamespace : Object → Option String
  | .typed object => object.metadata.objectNamespace
  | .generic object => object.objectNamespace

def labels : Object → Option (SortedMap String)
  | .typed object => object.metadata.labels
  | .generic object => object.labels

def annotations : Object → Option (SortedMap String)
  | .typed object => object.metadata.annotations
  | .generic object => object.annotations

def setName (object : Object) (name : String) : Object :=
  match object with
  | .typed object => .typed { object with metadata := { object.metadata with name := some name } }
  | .generic object => .generic (object.setName name)

def setNamespace (object : Object) (name : String) : Object :=
  match object with
  | .typed object =>
    .typed { object with metadata := { object.metadata with objectNamespace := some name } }
  | .generic object => .generic (object.setNamespace name)

def setLabels (object : Object) (labels : SortedMap String) : Object :=
  match object with
  | .typed object => .typed { object with metadata := { object.metadata with labels := some labels } }
  | .generic object => .generic { object with labels := some labels }

def setAnnotations (object : Object) (annotations : SortedMap String) : Object :=
  match object with
  | .typed object =>
    .typed { object with metadata := { object.metadata with annotations := some annotations } }
  | .generic object => .generic { object with annotations := some annotations }

/-- Edit the labels. The map comes into being even if the edit does nothing. -/
def editLabels (object : Object) (edit : SortedMap String → SortedMap String) : Object :=
  object.setLabels (edit (object.labels.getD ∅))

def editAnnotations (object : Object) (edit : SortedMap String → SortedMap String) : Object :=
  object.setAnnotations (edit (object.annotations.getD ∅))

def replicas? : Object → Option Int
  | .typed object => object.replicas?
  | .generic _ => none

def type : Object → String
  | .typed object => object.kind.name
  | .generic _ => "Unstructured"

end Object

end Admission
