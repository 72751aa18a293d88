import Admission.Proofs.Json.Conformance
import Admission.Proofs.Review.Answer
import Admission.Proofs.Review.Received

/-! What the text of an answer tells of it. An answer is read back from its text as it was sent, so
that answers are told apart by all that goes into it, and by nothing else. -/

set_option autoImplicit false

namespace Admission

open Json (Fills Writes)

namespace Wire

theorem fills_optional {fills : Json.Slot → Option Json → Prop} {slot : Json.Slot}
    {slots : List Json.Slot} {members : Entries Json} {value? : Option Json}
    (fill : fills slot value?) (rest : Fills fills slots members) :
    Fills fills (slot :: slots) (optional slot.1 value? ++ members) := by
  cases value? with
  | none => exact .left fill rest
  | some json => exact .value fill rest

theorem takes_strings (values : List String) (room : Nat) :
    (Json.Shape.list .string).Takes (room + 1) (strings values) := by
  refine Json.takes_list fun item mem => ?_
  obtain ⟨value, -, rfl⟩ := List.mem_map.1 mem
  exact Json.takes_string value room

theorem stringsOf_strings (values : List String) : stringsOf (strings values) = values := by
  induction values with
  | nil => rfl
  | cons value values ih => exact congrArg (value :: ·) ih

end Wire

namespace ResponseStatus

theorem takes_codeJson (code : UInt16) (room : Nat) :
    Json.Shape.uint16.Takes room (codeJson code) := by
  have := code.toNat_lt
  exact Json.takes_uint16 ⟨by omega, by omega⟩ room

theorem takes_text (status : Status) (room : Nat) :
    (Json.Shape.choice ["Success", "Failure"]).Takes room (.string status.text) :=
  Json.takes_choice (by cases status <;> simp [Status.text]) room

def members (status : ResponseStatus) : List (String × Json) :=
  Wire.optionalString "status" (status.status.map Status.text)
    ++ Wire.optionalString "message" status.message
    ++ Wire.optional "code" (status.code.map codeJson)

theorem takes_toJson (status : ResponseStatus) (room : Nat) :
    Wire.statusShape.Takes (room + 1) status.toJson := by
  have name : Writes room ("status", .optional, .choice ["Success", "Failure"])
      ((status.status.map Status.text).map .string) := by
    rw [Option.map_map]
    exact .map rfl (fun name => takes_text name room) fun _ => rfl
  have message : Writes room ("message", Wire.optionalText) (status.message.map .string) :=
    .map rfl (fun text => Json.takes_string text room) fun _ => rfl
  have code : Writes room ("code", .optional, .uint16) (status.code.map codeJson) :=
    .map rfl (fun code => takes_codeJson code room) fun _ => rfl
  have filled : Fills (Writes room) (Wire.slots Wire.statusShape) (status.members ++ []) := by
    rw [members, List.append_assoc, List.append_assoc]
    exact Wire.fills_optional name (Wire.fills_optional message (Wire.fills_optional code .nil))
  rw [List.append_nil] at filled
  exact Json.takes_record (by decide) filled

theorem code?_codeJson (code : UInt16) : code? (codeJson code) = some code := by
  have fits : (code.toNat : Int).toNat < UInt16.size := by
    rw [Int.toNat_natCast]
    exact code.toNat_lt
  refine (if_pos fits).trans ?_
  rw [Int.toNat_natCast, UInt16.ofNat_toNat]

theorem status_of_text (status : Status) :
    (if status.text = Status.success.text then Status.success else .failure) = status := by
  cases status <;> simp [Status.text]

theorem ofJson_toJson (status : ResponseStatus) : ofJson status.toJson = status := by
  have found (key : String) :
      Json.member? key status.toJson = Entries.find? status.members key := rfl
  obtain ⟨name, message, code⟩ := status
  simp only [ofJson, found, members, Entries.find?_append, Wire.optionalString,
    Wire.find?_optional]
  cases name <;> cases message <;> cases code <;>
    simp [Json.string?, status_of_text, code?_codeJson]

end ResponseStatus

namespace AdmissionResponse

theorem takes_toJson (response : AdmissionResponse) (room : Nat) :
    Wire.responseShape.Takes (room + 2) response.toJson := by
  have uid : Writes (room + 1) ("uid", .required, .string) (some (.string response.uid)) :=
    .value (Json.takes_string _ _) rfl
  have allowed : Writes (room + 1) ("allowed", .required, .boolean)
      (some (.bool response.allowed)) :=
    .value (Json.takes_boolean _ _) rfl
  have patch : Writes (room + 1) ("patch", Wire.optionalText) (response.patch.map .string) :=
    .map rfl (fun text => Json.takes_string text _) fun _ => rfl
  have status : Writes (room + 1) ("status", .optional, Wire.statusShape)
      (response.status.map ResponseStatus.toJson) :=
    .map rfl (fun status => status.takes_toJson room) fun _ => rfl
  have warnings : Writes (room + 1) ("warnings", .optional, .list .string)
      (response.warnings.map Wire.strings) :=
    .map rfl (fun warnings => Wire.takes_strings warnings room) fun _ => rfl
  have behind : Fills (Writes (room + 1)) [("patch", Wire.optionalText),
      ("status", .optional, Wire.statusShape), ("warnings", .optional, .list .string)]
      (Wire.optionalString "patch" response.patch ++
        (Wire.optional "status" (response.status.map ResponseStatus.toJson) ++
          (Wire.optional "warnings" (response.warnings.map Wire.strings) ++ []))) :=
    Wire.fills_optional patch (Wire.fills_optional status (Wire.fills_optional warnings .nil))
  have filled : Fills (Writes (room + 1)) (Wire.slots Wire.responseShape)
      (response.members ++ []) := by
    simp only [members, List.append_assoc]
    refine .value uid (.value allowed ?_)
    cases response.patchType with
    | false => exact .left (.nothing rfl) behind
    | true => exact .value (.value (Json.takes_choice (by simp) _) rfl) behind
  rw [List.append_nil] at filled
  exact Json.takes_record (by decide) filled

theorem ofJson_toJson (response : AdmissionResponse) : ofJson response.toJson = response := by
  have found (key : String) :
      Json.member? key response.toJson = Entries.find? response.members key := rfl
  obtain ⟨uid, allowed, type, patch, status, warnings⟩ := response
  simp only [ofJson, Wire.textOf, found, find?_uid, find?_allowed, find?_patchType, find?_patch,
    find?_status, find?_warnings, mk.injEq]
  refine ⟨rfl, rfl, ?_, ?_, ?_, ?_⟩
  · cases type <;> rfl
  · cases patch <;> rfl
  · simp [Function.comp_def, ResponseStatus.ofJson_toJson]
  · simp [Function.comp_def, Wire.stringsOf_strings]

end AdmissionResponse

namespace ReviewResponse

theorem takes_toJson (review : ReviewResponse) (room : Nat) :
    Wire.reviewResponseShape.Takes (room + 3) review.toJson :=
  Json.takes_record (by decide)
    (.value (.value (Json.takes_string _ _) rfl)
      (.value (.value (Json.takes_string _ _) rfl)
        (.value (.value (review.response.takes_toJson room) rfl) .nil)))

theorem ofJson_toJson (review : ReviewResponse) : ofJson review.toJson = review := by
  obtain ⟨kind, version, response⟩ := review
  exact congrArg (ReviewResponse.mk kind version) response.ofJson_toJson

theorem parse_text (review : ReviewResponse) :
    parse (Text.utf8Bytes review.toJson.render) = .ok review := by
  rw [parse, Json.parseAs_render (review.takes_toJson 124) review.readsBack_toJson, Except.map,
    ofJson_toJson]

theorem render_injective {first second : ReviewResponse}
    (same : first.toJson.render = second.toJson.render) : first = second := by
  have parsed := first.parse_text
  rw [same, second.parse_text, Except.ok.injEq] at parsed
  exact parsed.symm

end ReviewResponse

namespace Response

def allowed : Response → Bool
  | .validating _ allowed _ _ => allowed
  | .mutating _ _ _ => true

/-- Why an object is denied. A message that goes along with an approval is not sent. -/
def denial? : Response → Option String
  | .validating _ false message _ => some message
  | _ => none

def patch? : Response → Option Bytes
  | .validating _ _ _ _ => none
  | .mutating _ patch _ => if patch = [] ∨ patch = Text.utf8Bytes "[]" then none else some patch

/-- Two answers that say the same in a generation. -/
structure Alike (generation : Generation) (first second : Response) : Prop where
  id : first.id = second.id
  allowed : first.allowed = second.allowed
  denial : first.denial? = second.denial?
  patch : first.patch? = second.patch?
  warnings : generation = .v1 → first.warnings = second.warnings

theorem patch?_mutating (id : String) (patch : Bytes) (warnings : List String) :
    (mutating id patch warnings).patch? = if hasMutated patch then some patch else none := by
  have brackets : Text.utf8Bytes "[]" = [91, 93] := by decide
  have mutated : hasMutated patch = true ↔ ¬(patch = [] ∨ patch = [91, 93]) := by
    simp [hasMutated]
  rw [patch?, brackets]
  by_cases nothing : patch = [] ∨ patch = [91, 93]
  · rw [if_pos nothing, if_neg fun changed => mutated.1 changed nothing]
  · rw [if_neg nothing, if_pos (mutated.2 nothing)]

end Response

namespace ReviewResponse

theorem encode_eq (generation : Generation) (response : Response) :
    encode generation response = {
      kind := envelopeKind
      apiVersion := generation.apiVersion
      response := {
        uid := response.id
        allowed := response.allowed
        patchType := response.patch?.isSome
        patch := response.patch?.map Base64.encode
        status := response.denial?.map fun message => ⟨some .failure, some message, some 400⟩
        warnings :=
          if generation = .v1 ∧ response.warnings ≠ [] then some response.warnings else none } } := by
  cases response with
  | validating id allowed message warnings =>
    simp only [encode, new, AdmissionResponse.ofResponse, Response.warnings]
    cases generation <;> cases allowed <;> simp [Response.id, Response.allowed, Response.patch?,
      Response.denial?, Generation.supportsWarnings]
  | mutating id patch warnings =>
    simp only [encode, new, AdmissionResponse.ofResponse, Response.warnings,
      Response.patch?_mutating]
    cases generation <;> cases hasMutated patch <;> simp [Response.id, Response.allowed,
      Response.denial?, Generation.supportsWarnings]

theorem warnings_sent_iff {generation : Generation} {warnings others : List String} :
    ((if generation = .v1 ∧ warnings ≠ [] then some warnings else none) =
      if generation = .v1 ∧ others ≠ [] then some others else none) ↔
      (generation = .v1 → warnings = others) := by
  cases generation with
  | v1beta1 => simp
  | v1 => cases warnings <;> cases others <;> simp

theorem encode_eq_iff {generation : Generation} {response other : Response} :
    encode generation response = encode generation other ↔ response.Alike generation other := by
  have base64 : Function.Injective (Option.map Base64.encode) :=
    Option.map_injective fun first second same => by
      have decoded := Base64.decode_encode first
      rw [same, Base64.decode_encode, Except.ok.injEq] at decoded
      exact decoded.symm
  have status : Function.Injective (Option.map fun message =>
      (⟨some .failure, some message, some 400⟩ : ResponseStatus)) :=
    Option.map_injective fun first second same => by simpa using same
  rw [encode_eq, encode_eq]
  constructor
  · intro same
    simp only [mk.injEq, AdmissionResponse.mk.injEq, true_and] at same
    obtain ⟨id, allowed, -, patch, denial, warnings⟩ := same
    exact ⟨id, allowed, status denial, base64 patch, warnings_sent_iff.1 warnings⟩
  · rintro ⟨id, allowed, denial, patch, warnings⟩
    rw [id, allowed, denial, patch, warnings_sent_iff.2 warnings]

/-- The text of an answer tells what the answer says, and nothing else: it is read back as the
envelope that was sent, and a patch in it is decoded as the very bytes of the patch. -/
theorem text_tells (generation : Generation) (response : Response) :
    parse (Text.utf8Bytes (encode generation response).toJson.render) =
        .ok (encode generation response) ∧
      ((encode generation response).response.patch.map fun patch =>
        Base64.decode (Text.utf8Bytes patch)) = response.patch?.map .ok ∧
      ∀ other, (encode generation response).toJson.render = (encode generation other).toJson.render ↔
        response.Alike generation other := by
  refine ⟨parse_text _, ?_, fun other => ?_⟩
  · rw [encode_eq, Option.map_map]
    exact congrArg (Option.map · _) (funext Base64.decode_encode)
  · rw [← encode_eq_iff]
    exact ⟨render_injective, fun same => by rw [same]⟩

end ReviewResponse

end Admission
