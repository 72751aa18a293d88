import Admission.Proofs.Json.PatchText
import Admission.Proofs.Text.Base64
import Admission.Proofs.Webhook.Mutating
import Admission.Review.Wire

/-! What a client finds in the text of an answer. -/

set_option autoImplicit false

namespace Admission

open Json (depth_object_le_iff depth_array_le_iff)

/-- A value whose brackets nest within the room and whose numbers are all integers. -/
def Json.Plain (room : Nat) (json : Json) : Prop :=
  json.depth ≤ room ∧ json.Integral

namespace Json.Plain

variable {room : Nat}

theorem bool (value : Bool) : Plain room (.bool value) :=
  ⟨Nat.zero_le room, .bool value⟩

theorem string (value : String) : Plain room (.string value) :=
  ⟨Nat.zero_le room, .string value⟩

theorem array {items : List Json} (plain : ∀ item ∈ items, Plain room item) :
    Plain (room + 1) (.array items) :=
  ⟨depth_array_le_iff.2 fun item mem => (plain item mem).1, .array fun item mem => (plain item mem).2⟩

theorem object {members : List (String × Json)} (plain : ∀ member ∈ members, Plain room member.2) :
    Plain (room + 1) (.object members) :=
  ⟨depth_object_le_iff.2 fun member mem => (plain member mem).1,
    .object fun member mem => (plain member mem).2⟩

end Json.Plain

namespace Wire

theorem plain_strings (values : List String) : (strings values).Plain 1 := by
  refine .array fun item mem => ?_
  obtain ⟨value, -, rfl⟩ := List.mem_map.1 mem
  exact .string value

theorem mem_optional {name : String} {value : Option Json} {member : String × Json}
    (mem : member ∈ optional name value) : value = some member.2 := by
  cases value with
  | none => cases mem
  | some value =>
    cases List.mem_singleton.1 mem
    rfl

theorem plain_of_mem_optionalString {name : String} {value : Option String} {room : Nat}
    {member : String × Json} (mem : member ∈ optionalString name value) : member.2.Plain room := by
  obtain ⟨text, -, eq⟩ := Option.map_eq_some_iff.1 (mem_optional mem)
  rw [← eq]
  exact .string text

theorem keys_optional (name : String) (value : Option Json) :
    (Entries.keys (optional name value)).Sublist [name] := by
  cases value with
  | none => exact List.nil_sublist _
  | some value => exact List.Sublist.refl _

theorem find?_optional (name : String) (value : Option Json) (key : String) :
    Entries.find? (optional name value) key = if name = key then value else none := by
  cases value <;> simp [optional, Entries.find?]

end Wire

theorem ResponseStatus.plain_toJson (status : ResponseStatus) : status.toJson.Plain 1 := by
  refine .object fun member mem => ?_
  simp only [List.mem_append] at mem
  rcases mem with (mem | mem) | mem
  · exact Wire.plain_of_mem_optionalString mem
  · exact Wire.plain_of_mem_optionalString mem
  · obtain ⟨code, -, eq⟩ := Option.map_eq_some_iff.1 (Wire.mem_optional mem)
    rw [← eq]
    exact ⟨Nat.le_refl 0, .integer _ _⟩

namespace AdmissionResponse

theorem plain_toJson (response : AdmissionResponse) : response.toJson.Plain 2 := by
  refine .object fun member mem => ?_
  simp only [List.mem_append] at mem
  rcases mem with (((mem | mem) | mem) | mem) | mem
  · simp only [List.mem_cons, List.not_mem_nil, or_false] at mem
    rcases mem with rfl | rfl
    · exact .string _
    · exact .bool _
  · split at mem
    · cases List.mem_singleton.1 mem
      exact .string _
    · cases mem
  · exact Wire.plain_of_mem_optionalString mem
  · obtain ⟨status, -, eq⟩ := Option.map_eq_some_iff.1 (Wire.mem_optional mem)
    rw [← eq]
    exact status.plain_toJson
  · obtain ⟨warnings, -, eq⟩ := Option.map_eq_some_iff.1 (Wire.mem_optional mem)
    rw [← eq]
    exact Wire.plain_strings warnings

def members (response : AdmissionResponse) : List (String × Json) :=
  [("uid", .string response.uid), ("allowed", .bool response.allowed)]
    ++ (if response.patchType then [("patchType", .string "JSONPatch")] else [])
    ++ Wire.optionalString "patch" response.patch
    ++ Wire.optional "status" (response.status.map ResponseStatus.toJson)
    ++ Wire.optional "warnings" (response.warnings.map Wire.strings)

theorem nodup_keys_members (response : AdmissionResponse) :
    (Entries.keys response.members).Nodup := by
  have all : ["uid", "allowed", "patchType", "patch", "status", "warnings"].Nodup := by decide
  have type : (Entries.keys (if response.patchType then [("patchType", Json.string "JSONPatch")]
      else [])).Sublist ["patchType"] := by
    split
    · exact List.Sublist.refl _
    · exact List.nil_sublist _
  refine all.sublist ?_
  simp only [members, Entries.keys, List.map_append]
  exact ((((List.Sublist.refl ["uid", "allowed"]).append type).append
    (Wire.keys_optional "patch" _)).append (Wire.keys_optional "status" _)).append
    (Wire.keys_optional "warnings" _)

theorem find?_uid (response : AdmissionResponse) :
    Entries.find? response.members "uid" = some (.string response.uid) :=
  rfl

theorem find?_allowed (response : AdmissionResponse) :
    Entries.find? response.members "allowed" = some (.bool response.allowed) :=
  rfl

theorem find?_patchType (response : AdmissionResponse) :
    Entries.find? response.members "patchType" =
      if response.patchType then some (.string "JSONPatch") else none := by
  cases type : response.patchType <;>
    simp [members, type, Entries.find?, Entries.find?_append, Wire.optionalString,
      Wire.find?_optional]

theorem find?_patch (response : AdmissionResponse) :
    Entries.find? response.members "patch" = response.patch.map .string := by
  cases type : response.patchType <;>
    simp [members, type, Entries.find?, Entries.find?_append, Wire.optionalString,
      Wire.find?_optional]

theorem find?_status (response : AdmissionResponse) :
    Entries.find? response.members "status" = response.status.map ResponseStatus.toJson := by
  cases type : response.patchType <;>
    simp [members, type, Entries.find?, Entries.find?_append, Wire.optionalString,
      Wire.find?_optional]

theorem find?_warnings (response : AdmissionResponse) :
    Entries.find? response.members "warnings" = response.warnings.map Wire.strings := by
  cases type : response.patchType <;>
    simp [members, type, Entries.find?, Entries.find?_append, Wire.optionalString,
      Wire.find?_optional]

end AdmissionResponse

/-- A way into an object that is written leads through the member of its first step. -/
theorem Json.Tree.at?_ofJson {members : List (String × Json)} (nodup : (Entries.keys members).Nodup)
    (key : String) (pointer : Json.Pointer) :
    (ofJson (.object members)).json.at? (key :: pointer) =
      (Entries.find? members key).bind fun value => (ofJson value).json.at? pointer := by
  have found : (ofJson (.object members)).json.step? key =
      (Entries.find? members key).map fun value => (ofJson value).json :=
    member?_ofJson nodup key
  rw [Json.at?, found, Option.bind_map]
  rfl

namespace ReviewResponse

theorem plain_toJson (review : ReviewResponse) : review.toJson.Plain 3 := by
  refine .object fun member mem => ?_
  simp only [List.mem_cons, List.not_mem_nil, or_false] at mem
  rcases mem with rfl | rfl | rfl
  · exact .string _
  · exact .string _
  · exact review.response.plain_toJson

theorem readsBack_toJson (review : ReviewResponse) : review.toJson.ReadsBack :=
  review.plain_toJson.2.readsBack

theorem parse_toJson (review : ReviewResponse) :
    Json.parse (Text.utf8Bytes review.toJson.render) = .ok (.ofJson review.toJson) := by
  have fits : review.toJson.depth ≤ Json.nestingLimit := review.plain_toJson.1.trans (by decide)
  have parsed := Json.parseWithin_render review.toJson fits
  rwa [review.readsBack_toJson] at parsed

theorem at?_kind (review : ReviewResponse) :
    (Json.Tree.ofJson review.toJson).json.at? ["kind"] = some (.string review.kind) :=
  Json.Tree.at?_ofJson (by simp [Entries.keys]) "kind" []

theorem at?_apiVersion (review : ReviewResponse) :
    (Json.Tree.ofJson review.toJson).json.at? ["apiVersion"] = some (.string review.apiVersion) :=
  Json.Tree.at?_ofJson (by simp [Entries.keys]) "apiVersion" []

theorem at?_response (review : ReviewResponse) (key : String) (pointer : Json.Pointer) :
    (Json.Tree.ofJson review.toJson).json.at? ("response" :: key :: pointer) =
      (Entries.find? review.response.members key).bind fun value =>
        (Json.Tree.ofJson value).json.at? pointer := by
  -- no key repeats, neither in the envelope nor in the response
  calc _ = (Json.Tree.ofJson review.response.toJson).json.at? (key :: pointer) :=
        Json.Tree.at?_ofJson (by simp [Entries.keys]) "response" (key :: pointer)
    _ = _ := Json.Tree.at?_ofJson review.response.nodup_keys_members key pointer

theorem at?_member (review : ReviewResponse) (key : String) :
    (Json.Tree.ofJson review.toJson).json.at? ["response", key] =
      (Entries.find? review.response.members key).map fun value => (Json.Tree.ofJson value).json :=
  (at?_response review key []).trans (Option.map_eq_bind ..).symm

theorem parse_render (review : ReviewResponse) :
    ∃ answer, Json.parse (Text.utf8Bytes review.toJson.render) = .ok answer ∧
      ∀ key, answer.json.at? ["response", key] =
        (Entries.find? review.response.members key).map fun value =>
          (Json.Tree.ofJson value).json :=
  ⟨_, review.parse_toJson, review.at?_member⟩

theorem json_strings (values : List String) :
    (Json.Tree.ofJson (Wire.strings values)).json = Wire.strings values := by
  refine Json.Tree.json_ofJson (.array fun item mem => ?_)
  obtain ⟨value, -, rfl⟩ := List.mem_map.1 mem
  exact .string value

theorem warnings_encode (response : Response) :
    (encode .v1 response).response.warnings =
      if response.warnings = [] then none else some response.warnings := by
  have empty : (response.warnings.isEmpty = true) = (response.warnings = []) :=
    propext List.isEmpty_iff
  cases response <;> simp only [encode, new, AdmissionResponse.ofResponse, empty] <;> rfl

theorem at?_warnings_encode (response : Response) :
    (Json.Tree.ofJson (encode .v1 response).toJson).json.at? ["response", "warnings"] =
      if response.warnings = [] then none else some (Wire.strings response.warnings) := by
  rw [at?_member, AdmissionResponse.find?_warnings, warnings_encode]
  split
  · rfl
  · exact congrArg some (json_strings _)

end ReviewResponse

/-- An answer that allows an object and makes `final` out of what was received: by a patch, or by
having none if the two are one. -/
inductive Allows (answer received final : Json) : Prop where
  | patched (allowed : answer.at? ["response", "allowed"] = some (.bool true))
    (type : answer.at? ["response", "patchType"] = some (.string "JSONPatch")) (text : String)
    (encoded : answer.at? ["response", "patch"] = some (.string text)) (bytes : Bytes)
    (decoded : Base64.decode (Text.utf8Bytes text) = .ok bytes) (patch : Json.Patch)
    (read : Json.Patch.ofBytes? bytes = some patch)
    (run : Json.Patch.run? patch received = some final)
  | unchanged (allowed : answer.at? ["response", "allowed"] = some (.bool true))
    (noType : answer.at? ["response", "patchType"] = none)
    (noPatch : answer.at? ["response", "patch"] = none) (eq : received = final)

theorem ReviewResponse.response_encode_mutating (generation : Generation) (id : String)
    (patch : Bytes) (warnings : List String) :
    let response := (encode generation (.mutating id patch warnings)).response
    response.allowed = true ∧ response.patchType = hasMutated patch ∧
      response.patch = if hasMutated patch then some (Base64.encode patch) else none := by
  cases generation <;> exact ⟨rfl, rfl, rfl⟩

theorem ReviewResponse.allows_encode (generation : Generation) (review : Review)
    {received mutated : Object} (warnings : List String) (integral : mutated.toJson.Integral) :
    ∃ answer, Json.parse (Text.utf8Bytes (encode generation
        (Reviewer.mutatingResponse review received mutated warnings)).toJson.render) = .ok answer ∧
      Allows answer.json received.toJson mutated.toJson := by
  obtain ⟨answer, parsed, found⟩ := parse_render (encode generation
    (Reviewer.mutatingResponse review received mutated warnings))
  obtain ⟨allowed, type, patch⟩ := response_encode_mutating generation review.id
    (Text.utf8Bytes (Json.diff received.toJson mutated.toJson).toJson.render) warnings
  refine ⟨answer, parsed, ?_⟩
  have old := received.canonical_toJson
  have new := mutated.canonical_toJson
  have allowed_at : answer.json.at? ["response", "allowed"] = some (.bool true) := by
    rw [found, AdmissionResponse.find?_allowed, Reviewer.mutatingResponse, allowed]
    rfl
  have type_at := found "patchType"
  have patch_at := found "patch"
  rw [AdmissionResponse.find?_patchType, Reviewer.mutatingResponse, type] at type_at
  rw [AdmissionResponse.find?_patch, Reviewer.mutatingResponse, patch] at patch_at
  -- a patch goes along exactly if there is a difference
  cases changed : hasMutated
      (Text.utf8Bytes (Json.diff received.toJson mutated.toJson).toJson.render) with
  | true =>
    rw [changed] at type_at patch_at
    obtain ⟨result, run, same⟩ := Json.run?_diff old new
    have result_eq := integral.eq_of_same same
    have read := Json.ofBytes?_diff received.toJson new
    rw [Json.reread_diff received.toJson integral.readsBack] at read
    exact .patched allowed_at type_at _ patch_at _ (Base64.decode_encode _) _ read
      (result_eq ▸ run)
  | false =>
    rw [changed] at type_at patch_at
    have same : received.toJson.same mutated.toJson = true := by
      by_contra differs
      rw [Bool.not_eq_true, ← Json.hasMutated_diff old new, changed] at differs
      exact Bool.false_ne_true differs
    exact .unchanged allowed_at type_at patch_at (integral.eq_of_same same)

structure Envelope (answer : Json) (review : Review) : Prop where
  kind : answer.at? ["kind"] = some (.string "AdmissionReview")
  apiVersion : answer.at? ["apiVersion"] = some (.string review.generation.apiVersion)
  uid : answer.at? ["response", "uid"] = some (.string review.id)

/-- An answer that tells why a review failed, and of nothing that was done in it. -/
structure Fails (answer : Json) (message : String) : Prop where
  allowed : answer.at? ["response", "allowed"] = some (.bool false)
  status : answer.at? ["response", "status", "status"] = some (.string "Failure")
  message : answer.at? ["response", "status", "message"] = some (.string message)
  noType : answer.at? ["response", "patchType"] = none
  noPatch : answer.at? ["response", "patch"] = none
  noWarnings : answer.at? ["response", "warnings"] = none

namespace ReviewResponse

theorem uid_new (generation : Generation) (response : AdmissionResponse) :
    (new generation response).response.uid = response.uid := by
  cases generation <;> rfl

theorem envelope_new (review : Review) {response : AdmissionResponse}
    (uid : response.uid = review.id) :
    Envelope (Json.Tree.ofJson (new review.generation response).toJson).json review := by
  constructor
  case kind => exact at?_kind _
  case apiVersion => exact at?_apiVersion _
  case uid =>
    rw [at?_response, AdmissionResponse.find?_uid, uid_new, uid]
    rfl

theorem response_failure (generation : Generation) (uid message : String) :
    (failure generation uid message).response =
      { uid, allowed := false, status := some ⟨some .failure, some message, none⟩ } := by
  cases generation <;> rfl

theorem fails_failure (generation : Generation) (uid message : String) :
    Fails (Json.Tree.ofJson (failure generation uid message).toJson).json message := by
  have status (key : String) :
      (Json.Tree.ofJson (failure generation uid message).toJson).json.at?
          ["response", "status", key] =
        (Entries.find? [("status", Json.string Status.failure.text), ("message", .string message)]
          key).bind fun value => some (Json.Tree.ofJson value).json := by
    rw [at?_response, AdmissionResponse.find?_status, response_failure]
    exact Json.Tree.at?_ofJson (by simp [Entries.keys, Wire.optionalString, Wire.optional]) key []
  constructor
  case allowed =>
    rw [at?_response, AdmissionResponse.find?_allowed, response_failure]
    rfl
  case status => exact status "status"
  case message => exact status "message"
  case noType =>
    rw [at?_response, AdmissionResponse.find?_patchType, response_failure]
    rfl
  case noPatch =>
    rw [at?_response, AdmissionResponse.find?_patch, response_failure]
    rfl
  case noWarnings =>
    rw [at?_response, AdmissionResponse.find?_warnings, response_failure]
    rfl

end ReviewResponse

end Admission
