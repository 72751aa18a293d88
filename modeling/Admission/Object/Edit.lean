import Admission.Object.Basic

/-! Edits of objects. -/

set_option autoImplicit false

namespace Admission

inductive MapEdit where
  | insert (key value : String)
  | erase (key : String)
  | clear

def MapEdit.apply (edit : MapEdit) (map : SortedMap String) : SortedMap String :=
  match edit with
  | .insert key value => map.insert key value
  | .erase key => map.erase key
  | .clear => ∅

def MapEdit.previous? (edit : MapEdit) (map : SortedMap String) : Option String :=
  match edit with
  | .insert key _ | .erase key => map.find? key
  | .clear => none

inductive Edit where
  | setName (name : String)
  | setNamespace (name : String)
  | labels (edit : MapEdit)
  | annotations (edit : MapEdit)
  /-- Change the tree of a generic object; a typed one has none. -/
  | update (change : Json.Tree → Json.Tree)
  /-- Set when the images of a pod are pulled. -/
  | pullPolicy (policy : String)

inductive EditError where
  | notAPod
  | notGeneric

def EditError.message : EditError → String
  | .notAPod => "not a pod"
  | .notGeneric => "not unstructured"

def Edit.previous? (edit : Edit) (object : Object) : Option String :=
  match edit with
  | .labels edit => edit.previous? (object.labels.getD ∅)
  | .annotations edit => edit.previous? (object.annotations.getD ∅)
  | _ => none

namespace Object

def edit (object : Object) (edit : Edit) : Except EditError Object :=
  match edit with
  | .setName name => .ok (object.setName name)
  | .setNamespace name => .ok (object.setNamespace name)
  | .labels edit => .ok (object.editLabels edit.apply)
  | .annotations edit => .ok (object.editAnnotations edit.apply)
  | .update change =>
    match object with
    | .typed _ => .error .notGeneric
    | .generic object => .ok (.generic (object.update change))
  | .pullPolicy policy =>
    match object with
    | .typed object => (object.setPullPolicy? policy).elim (.error .notAPod) fun pod => .ok (.typed pod)
    | .generic _ => .error .notAPod

/-- Make edits up to the first one that is refused for want of a pod. Generic edits of a typed
object are passed over. -/
def editAll (object : Object) (edits : List Edit) : Object × Option EditError :=
  match edits with
  | [] => (object, none)
  | edit :: edits =>
    match object.edit edit with
    | .ok object => object.editAll edits
    | .error .notGeneric => object.editAll edits
    | .error .notAPod => (object, some .notAPod)

end Object

end Admission
