import Admission.Object.Creator
import Admission.Outcome

/-! Why a webhook cannot be built, and why a review fails. -/

set_option autoImplicit false

namespace Admission

/-- What is wrong with the settings of a webhook. It is found out before any request. -/
inductive SetupError where
  | emptyId
  | missing (capability : String)
  deriving DecidableEq

def SetupError.message : SetupError → String
  | .emptyId => "webhook id can\x27t be empty"
  | .missing capability => capability ++ " can\x27t be missing"

inductive Failure where
  /-- A chain found its request over. -/
  | cancelled (kind : WebhookKind)
  | other (message : String)
  deriving DecidableEq

def Failure.message : Failure → String
  | .cancelled kind => kind.text ++ " chain not finished correctly, context done"
  | .other message => message

inductive ReviewError where
  | object (error : ObjectError)
  | mutation (failure : Failure)
  | validation (failure : Failure)

def ReviewError.message : ReviewError → String
  | .object error => error.message
  | .mutation failure | .validation failure => failure.message

end Admission
