import Admission.Json.Tree

/-! Objects of unknown type, kept as the tree they were read from. -/

set_option autoImplicit false

namespace Admission

open Json (Tree)

/-- A tree together with the labels and annotations read from it, which may have been edited since.
Writing the object brings them back into the tree only where they differ from what is there, so an
object that was not edited is written as it was read, null members included. -/
structure Generic where
  data : Tree
  labels : Option (SortedMap String)
  annotations : Option (SortedMap String)

namespace Generic

def metadata? (data : Tree) (field : String) : Option Tree :=
  (data.member? "metadata").bind (·.member? field)

def stringMap? (data : Tree) (field : String) : Option (SortedMap String) :=
  (metadata? data field).bind Tree.stringMap?

/-- Set a metadata field. Metadata that is no object is replaced by one; a root that is no object
has no metadata. -/
def setMetadata (data : Tree) (field : String) (value : Tree) : Tree :=
  match data.members? with
  | none => data
  | some members =>
    let metadata := ((members.find? "metadata").bind Tree.members?).getD ∅
    .object (members.insert "metadata" (.object (metadata.insert field value)))

/-- Write a map into a metadata field that does not hold it yet. A field that holds no map of
strings is left alone by an empty one. -/
def writeMap (data : Tree) (field : String) (map : Option (SortedMap String)) : Tree :=
  match map with
  | none => data
  | some map =>
    let current := stringMap? data field
    if current = some map || (current.isNone && map.isEmpty) then data
    else setMetadata data field (.ofStringMap map)

def ofTree (data : Tree) : Generic :=
  ⟨data, stringMap? data "labels", stringMap? data "annotations"⟩

def ofTree? (data : Tree) : Option Generic :=
  if data.json.isObject then some (ofTree data) else none

def toTree (object : Generic) : Tree :=
  writeMap (writeMap object.data "labels" object.labels) "annotations" object.annotations

def text? (object : Generic) (field : String) : Option String :=
  (metadata? object.data field).bind Tree.string?

def name (object : Generic) : Option String :=
  object.text? "name"

def objectNamespace (object : Generic) : Option String :=
  object.text? "namespace"

def setName (object : Generic) (name : String) : Generic :=
  { object with data := setMetadata object.data "name" (.string name) }

def setNamespace (object : Generic) (name : String) : Generic :=
  { object with data := setMetadata object.data "namespace" (.string name) }

/-- A look into the tree, where edits of labels and annotations do not show yet. -/
def at? (object : Generic) (pointer : Json.Pointer) : Option Json :=
  object.data.json.at? pointer

/-- Change the tree after the edits of labels and annotations were written into it. -/
def update (object : Generic) (change : Tree → Tree) : Generic :=
  ofTree (change object.toTree)

end Generic

end Admission
