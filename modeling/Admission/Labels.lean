import Admission.Webhook.Mutator
import Admission.Webhook.Validator

/-! Business logic about labels: a mutator that sets them and a validator that requires them. -/

set_option autoImplicit false

namespace Admission.Labels

def changed (key previous value : String) : String :=
  "label " ++ key ++ " changed from \x27" ++ previous ++ "\x27 to \x27" ++ value ++ "\x27"

def warnings (current labels : SortedMap String) : List String :=
  labels.entries.filterMap fun (key, value) =>
    match current.find? key with
    | some previous => if previous = value then none else some (changed key previous value)
    | none => none

def mutator {σ : Type} (labels : SortedMap String) : Mutator σ :=
  .leaf fun _ _ object world =>
    { outcome := .done { warnings := warnings (object.labels.getD ∅) labels }
      object := object.editLabels fun current => current.overlay labels
      world }

def missing (required : List String) (labels : Option (SortedMap String)) : List String :=
  required.filter fun key => !(labels.getD ∅).contains key

/-- Reject objects that lack labels, named in the message. Whatever is deleted is let go, and so
is an object of which the message would name nothing. -/
def validator {σ : Type} (required : List String) : Validator σ :=
  .leaf fun _ review object world =>
    let missing := ", ".intercalate (missing required object.labels)
    if review.operation = .delete ∨ missing = "" then { outcome := .done {}, world }
    else
      { outcome := .done { valid := false, message := "missing required labels: " ++ missing }
        world }

end Admission.Labels
