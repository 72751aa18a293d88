import Admission.Json.Shape
import Admission.Review.Basic
import Admission.Text.Base64

/-! The envelope in which reviews and answers travel. Both generations share one layout. -/

set_option autoImplicit false

namespace Admission

def envelopeKind : String := "AdmissionReview"

namespace Wire

open Json (Shape Presence)

def optionalText : Presence × Shape := (.optional, .string)

def emptyText : Presence := .defaulted (.string "")

def kindShape : Shape :=
  .record "GroupVersionKind" (.strict false)
    [("group", emptyText, .string), ("version", .required, .string), ("kind", .required, .string)]

def resourceShape : Shape :=
  .record "GroupVersionResource" (.strict false)
    [("group", emptyText, .string), ("version", .required, .string),
      ("resource", .required, .string)]

def userShape : Shape :=
  .record "UserInfo" .lenient
    [("extra", .optional, .map (.list .string)), ("groups", .optional, .list .string),
      ("uid", optionalText), ("username", optionalText)]

/-- Every member of a request may be missing. -/
def requestShape : Shape :=
  .record "AdmissionRequest" (.strict true)
    [("uid", emptyText, .string),
      ("kind", .defaulted (GroupVersionKind.toJson ⟨"", "", ""⟩), kindShape),
      ("resource", .defaulted (GroupVersionResource.toJson ⟨"", "", ""⟩), resourceShape),
      ("subResource", optionalText),
      ("requestKind", .optional, kindShape),
      ("requestResource", .optional, resourceShape),
      ("name", optionalText),
      ("namespace", optionalText),
      ("operation", emptyText, .string),
      ("userInfo", .defaulted (.object []), userShape),
      ("object", .optional, .any),
      ("oldObject", .optional, .any),
      ("dryRun", .optional, .boolean)]

def reviewRequestShape : Shape :=
  .record "AdmissionReviewRequest" (.strict false)
    [("kind", optionalText), ("apiVersion", optionalText), ("request", .optional, requestShape)]

def statusShape : Shape :=
  .record "AdmissionResponseStatus" (.strict false)
    [("status", .optional, .choice ["Success", "Failure"]), ("message", optionalText),
      ("code", .optional, .uint16)]

def responseShape : Shape :=
  .record "AdmissionResponse" (.strict false)
    [("uid", .required, .string), ("allowed", .required, .boolean),
      ("patchType", .optional, .choice ["JSONPatch"]), ("patch", optionalText),
      ("status", .optional, statusShape), ("warnings", .optional, .list .string)]

def reviewResponseShape : Shape :=
  .record "AdmissionReviewResponse" (.strict false)
    [("kind", .required, .string), ("apiVersion", .required, .string),
      ("response", .required, responseShape)]

def optional (name : String) (value : Option Json) : List (String × Json) :=
  match value with
  | some value => [(name, value)]
  | none => []

def optionalString (name : String) (value : Option String) : List (String × Json) :=
  optional name (value.map .string)

def strings (values : List String) : Json :=
  .array (values.map .string)

def textOf (json : Json) (name : String) : String :=
  ((json.member? name).bind Json.string?).getD ""

def stringsOf (json : Json) : List String :=
  match json with
  | .array items => items.filterMap Json.string?
  | _ => []

def boolOf? (json : Json) : Option Bool :=
  match json with
  | .bool value => some value
  | _ => none

def kindOf (json : Json) : GroupVersionKind :=
  ⟨textOf json "group", textOf json "version", textOf json "kind"⟩

def resourceOf (json : Json) : GroupVersionResource :=
  ⟨textOf json "group", textOf json "version", textOf json "resource"⟩

def userOf (json : Json) : UserInfo where
  extra := ((json.member? "extra").bind Json.members?).map fun members =>
    .ofList (members.mapValues stringsOf)
  groups := (json.member? "groups").map stringsOf
  uid := (json.member? "uid").bind Json.string?
  username := (json.member? "username").bind Json.string?

end Wire

def UserInfo.toJson (user : UserInfo) : Json :=
  .object (Wire.optional "extra" (user.extra.map fun extra => .ofMap (extra.mapValues Wire.strings))
    ++ Wire.optional "groups" (user.groups.map Wire.strings)
    ++ Wire.optionalString "uid" user.uid
    ++ Wire.optionalString "username" user.username)

structure AdmissionRequest where
  uid : String
  kind : GroupVersionKind
  resource : GroupVersionResource
  subResource : Option String
  requestKind : Option GroupVersionKind
  requestResource : Option GroupVersionResource
  name : Option String
  objectNamespace : Option String
  operation : String
  user : UserInfo
  object : Option Json
  oldObject : Option Json
  dryRun : Option Bool

namespace AdmissionRequest

open Wire

def ofJson (json : Json) : AdmissionRequest where
  uid := textOf json "uid"
  kind := (json.member? "kind").elim default kindOf
  resource := (json.member? "resource").elim default resourceOf
  subResource := (json.member? "subResource").bind Json.string?
  requestKind := (json.member? "requestKind").map kindOf
  requestResource := (json.member? "requestResource").map resourceOf
  name := (json.member? "name").bind Json.string?
  objectNamespace := (json.member? "namespace").bind Json.string?
  operation := textOf json "operation"
  user := (json.member? "userInfo").elim {} userOf
  object := json.member? "object"
  oldObject := json.member? "oldObject"
  dryRun := (json.member? "dryRun").bind boolOf?

def toJson (request : AdmissionRequest) : Json :=
  .object ([("uid", .string request.uid), ("kind", request.kind.toJson),
      ("resource", request.resource.toJson)]
    ++ optionalString "subResource" request.subResource
    ++ optional "requestKind" (request.requestKind.map GroupVersionKind.toJson)
    ++ optional "requestResource" (request.requestResource.map GroupVersionResource.toJson)
    ++ optionalString "name" request.name
    ++ optionalString "namespace" request.objectNamespace
    ++ [("operation", .string request.operation), ("userInfo", request.user.toJson)]
    ++ optional "object" request.object
    ++ optional "oldObject" request.oldObject
    ++ optional "dryRun" (request.dryRun.map .bool))

end AdmissionRequest

structure ReviewRequest where
  kind : Option String
  apiVersion : Option String
  request : Option AdmissionRequest

inductive DecodeError where
  | malformed (error : Json.Error)
  | unknownType (apiVersion kind : String)
  | missingRequest

def DecodeError.message : DecodeError → String
  | .malformed error =>
    "could not decode the admission review from the request: " ++ error.message
  | .unknownType apiVersion kind =>
    "no kind \"" ++ kind ++ "\" is registered for version \"" ++ apiVersion ++ "\""
  | .missingRequest => "admission review has no request"

def rawBytes (object : Option Json) : Bytes :=
  match object with
  | none | some .null => []
  | some value => Text.utf8Bytes value.render

namespace ReviewRequest

def ofJson (json : Json) : ReviewRequest where
  kind := (json.member? "kind").bind Json.string?
  apiVersion := (json.member? "apiVersion").bind Json.string?
  request := (json.member? "request").map AdmissionRequest.ofJson

def toJson (review : ReviewRequest) : Json :=
  .object (Wire.optionalString "kind" review.kind
    ++ Wire.optionalString "apiVersion" review.apiVersion
    ++ Wire.optional "request" (review.request.map AdmissionRequest.toJson))

def parse (body : Bytes) : Except Json.Error ReviewRequest :=
  (Json.parseAs Wire.reviewRequestShape body).map ofJson

def generation (review : ReviewRequest) : Except DecodeError Generation :=
  let apiVersion := review.apiVersion.getD ""
  let kind := review.kind.getD ""
  if kind = envelopeKind ∧ apiVersion = Generation.v1.apiVersion then .ok .v1
  else if kind = envelopeKind ∧ apiVersion = Generation.v1beta1.apiVersion then .ok .v1beta1
  else .error (.unknownType apiVersion kind)

/-- The kind and the resource that the client asked for are preferred to the ones they were
converted to. -/
def toReview (review : ReviewRequest) : Except DecodeError Review :=
  match review.generation, review.request with
  | .error error, _ => .error error
  | .ok _, none => .error .missingRequest
  | .ok generation, some request =>
    .ok {
      id := request.uid
      name := request.name.getD ""
      objectNamespace := request.objectNamespace.getD ""
      operation := .ofWire request.operation
      generation
      kind := request.requestKind.getD request.kind
      resource := request.requestResource.getD request.resource
      oldObject := rawBytes request.oldObject
      newObject := rawBytes request.object
      dryRun := request.dryRun.getD false
      user := request.user }

end ReviewRequest

def Review.decode (body : Bytes) : Except DecodeError Review :=
  match ReviewRequest.parse body with
  | .error error => .error (.malformed error)
  | .ok review => review.toReview

inductive Status where
  | success
  | failure
  deriving DecidableEq

def Status.text : Status → String
  | .success => "Success"
  | .failure => "Failure"

structure ResponseStatus where
  status : Option Status
  message : Option String
  code : Option UInt16

structure AdmissionResponse where
  uid : String
  allowed : Bool
  /-- Whether the patch is declared to be a JSON patch, the only type there is. -/
  patchType : Bool := false
  /-- A patch in base64. -/
  patch : Option String := none
  status : Option ResponseStatus := none
  warnings : Option (List String) := none

structure ReviewResponse where
  kind : String
  apiVersion : String
  response : AdmissionResponse

namespace ResponseStatus

def code? (json : Json) : Option UInt16 :=
  match json with
  | .number (.integer value _) =>
    if value.toNat < UInt16.size then some (.ofNat value.toNat) else none
  | _ => none

def ofJson (json : Json) : ResponseStatus where
  status := ((json.member? "status").bind Json.string?).map fun name =>
    if name = Status.success.text then .success else .failure
  message := (json.member? "message").bind Json.string?
  code := (json.member? "code").bind code?

def codeJson (code : UInt16) : Json :=
  .number (.integer code.toNat ⟨by omega, by have := code.toNat_lt; omega⟩)

def toJson (status : ResponseStatus) : Json :=
  .object (Wire.optionalString "status" (status.status.map Status.text)
    ++ Wire.optionalString "message" status.message
    ++ Wire.optional "code" (status.code.map codeJson))

end ResponseStatus

namespace AdmissionResponse

def ofJson (json : Json) : AdmissionResponse where
  uid := Wire.textOf json "uid"
  allowed := ((json.member? "allowed").bind Wire.boolOf?).getD false
  patchType := (json.member? "patchType").isSome
  patch := (json.member? "patch").bind Json.string?
  status := (json.member? "status").map ResponseStatus.ofJson
  warnings := (json.member? "warnings").map Wire.stringsOf

def toJson (response : AdmissionResponse) : Json :=
  .object ([("uid", .string response.uid), ("allowed", .bool response.allowed)]
    ++ (if response.patchType then [("patchType", .string "JSONPatch")] else [])
    ++ Wire.optionalString "patch" response.patch
    ++ Wire.optional "status" (response.status.map ResponseStatus.toJson)
    ++ Wire.optional "warnings" (response.warnings.map Wire.strings))

/-- A denied object is reported as a failure with code 400; a patch goes along only if it changes
something, warnings only if there are any. -/
def ofResponse (response : Response) : AdmissionResponse :=
  let warnings := if response.warnings.isEmpty then none else some response.warnings
  match response with
  | .validating id allowed message _ =>
    { uid := id, allowed
      status := if allowed then none else some ⟨some .failure, some message, some 400⟩
      warnings }
  | .mutating id patch _ =>
    { uid := id, allowed := true
      patchType := hasMutated patch
      patch := if hasMutated patch then some (Base64.encode patch) else none
      warnings }

end AdmissionResponse

namespace ReviewResponse

def ofJson (json : Json) : ReviewResponse where
  kind := Wire.textOf json "kind"
  apiVersion := Wire.textOf json "apiVersion"
  response := AdmissionResponse.ofJson ((json.member? "response").getD .null)

def toJson (review : ReviewResponse) : Json :=
  .object [("kind", .string review.kind), ("apiVersion", .string review.apiVersion),
    ("response", review.response.toJson)]

def parse (body : Bytes) : Except Json.Error ReviewResponse :=
  (Json.parseAs Wire.reviewResponseShape body).map ofJson

/-- The envelope of an answer, without warnings in the generation that has none. -/
def new (generation : Generation) (response : AdmissionResponse) : ReviewResponse where
  kind := envelopeKind
  apiVersion := generation.apiVersion
  response :=
    if generation.supportsWarnings then response else { response with warnings := none }

def encode (generation : Generation) (response : Response) : ReviewResponse :=
  new generation (.ofResponse response)

def failure (generation : Generation) (uid message : String) : ReviewResponse :=
  new generation { uid, allowed := false, status := some ⟨some .failure, some message, none⟩ }

end ReviewResponse

end Admission
