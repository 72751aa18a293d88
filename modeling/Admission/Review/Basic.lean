import Admission.Kind

/-! An admission review and the answer of a webhook to it, whatever generation of the API they
travel in. -/

set_option autoImplicit false

namespace Admission

abbrev Bytes := List UInt8

/-- The generation of the admission API. An answer is in the generation of its request. -/
inductive Generation where
  | v1beta1
  | v1
  deriving DecidableEq, Inhabited

namespace Generation

def text : Generation → String
  | .v1beta1 => "v1beta1"
  | .v1 => "v1"

def apiVersion (generation : Generation) : String :=
  "admission.k8s.io/" ++ generation.text

def supportsWarnings : Generation → Bool
  | .v1beta1 => false
  | .v1 => true

end Generation

inductive Operation where
  | create
  | update
  | delete
  | connect
  | unknown
  deriving DecidableEq, Inhabited

namespace Operation

def text : Operation → String
  | .create => "create"
  | .update => "update"
  | .delete => "delete"
  | .connect => "connect"
  | .unknown => "unknown"

def ofWire (name : String) : Operation :=
  match name with
  | "CREATE" => .create
  | "UPDATE" => .update
  | "DELETE" => .delete
  | "CONNECT" => .connect
  | _ => .unknown

end Operation

structure UserInfo where
  extra : Option (SortedMap (List String)) := none
  groups : Option (List String) := none
  uid : Option String := none
  username : Option String := none
  deriving DecidableEq, Inhabited

structure Review where
  id : String
  name : String
  objectNamespace : String
  operation : Operation
  generation : Generation
  kind : GroupVersionKind
  resource : GroupVersionResource
  oldObject : Bytes
  newObject : Bytes
  dryRun : Bool
  user : UserInfo
  deriving Inhabited

/-- The text of the object under review: the one that goes away, or else the one that comes. -/
def Review.rawObject (review : Review) : Bytes :=
  if review.operation = .delete then review.oldObject else review.newObject

inductive WebhookKind where
  | mutating
  | validating
  deriving DecidableEq

def WebhookKind.text : WebhookKind → String
  | .mutating => "mutating"
  | .validating => "validating"

inductive Response where
  | validating (id : String) (allowed : Bool) (message : String) (warnings : List String)
  /-- `patch` is the text of a JSON patch. -/
  | mutating (id : String) (patch : Bytes) (warnings : List String)
  deriving DecidableEq

namespace Response

def id : Response → String
  | .validating id _ _ _ => id
  | .mutating id _ _ => id

def warnings : Response → List String
  | .validating _ _ _ warnings => warnings
  | .mutating _ _ warnings => warnings

end Response

/-- Whether a patch has an operation: its text is neither missing nor that of the empty list. -/
def hasMutated (patch : Bytes) : Bool :=
  !patch.isEmpty && patch != [91, 93]

end Admission
