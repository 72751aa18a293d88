import Admission.Proofs.Json.Layout
import Admission.Proofs.Review.Answer
import Admission.Proofs.Review.Received

/-! A review that is sent in either generation. Both bodies are decoded or none is, and answers of
one content are written alike, but for the version and the warnings. -/

set_option autoImplicit false

namespace Admission

open Json (Node Key Ending Agree)

/-- A review as it is written in every layout, but for its version. That stands under its key, or in
the second place of a list. -/
inductive Draft where
  | object (before after : List (Key × Node)) (ending : Ending)
  | list (kind : Node) (behind : List Node) (ending : Ending)

def Draft.telling (draft : Draft) (version : String) : Node :=
  let version : Node := .scalar (.string (.ok version)) 0 0
  match draft with
  | .object before after ending =>
    .object 0 (before ++ (⟨.ok "apiVersion", 0, 0⟩, version) :: after) ending
  | .list kind behind ending => .array 0 0 (kind :: version :: behind) ending

/-- Two bodies that are the same review, each in a layout of its own, but one tells the newer version
and the other the older one. -/
structure Counterparts (newer older : Bytes) : Prop where
  roots : ∃ draft : Draft,
    (Json.document newer).root.plain = draft.telling Generation.v1.apiVersion ∧
    (Json.document older).root.plain = draft.telling Generation.v1beta1.apiVersion
  trailing : (Json.document newer).trailing.isSome = (Json.document older).trailing.isSome

namespace ReviewRequest

open Json (Slot readMembers)

def telling (review : ReviewRequest) (version : String) : ReviewRequest :=
  { review with apiVersion := some version }

def ofMet (met : List (String × Option Json)) : ReviewRequest where
  kind := (met.lookup "kind").join.bind Json.string?
  apiVersion := (met.lookup "apiVersion").join.bind Json.string?
  request := (met.lookup "request").join.map AdmissionRequest.ofJson

theorem ofJson_members (met : List (String × Option Json)) :
    ofJson (.object ((Wire.slots Wire.reviewRequestShape).filterMap fun slot =>
      (met.lookup slot.1).join.map (slot.1, ·))) = ofMet met := by
  simp only [Wire.slots, Wire.reviewRequestShape, Wire.optionalText, List.filterMap_cons,
    List.filterMap_nil, ofMet, ofJson, Json.member?]
  generalize (met.lookup "kind").join = kind, (met.lookup "apiVersion").join = version,
    (met.lookup "request").join = request
  cases kind <;> cases version <;> cases request <;> rfl

/-- All members are optional, so that a review is read once its members are. -/
theorem read_object (start : Nat) (members : List (Key × Node)) (ending : Ending) (room : Nat) :
    ((Node.object start members ending).read Wire.reviewRequestShape (room + 1)).map ofJson =
      (readMembers members (Wire.slots Wire.reviewRequestShape) true room []).bind fun met =>
        ending.check.map fun _ => ofMet met := by
  have optional : ∀ slot ∈ Wire.slots Wire.reviewRequestShape, slot.2.1 = .optional := by
    simp [Wire.slots, Wire.reviewRequestShape, Wire.optionalText]
  refine (congrArg (Except.map ofJson) (Json.read_object "AdmissionReviewRequest" (.strict false)
    (Wire.slots Wire.reviewRequestShape) start members ending room)).trans ?_
  rw [Json.RecordForm.unique]
  cases readMembers members (Wire.slots Wire.reviewRequestShape) true room [] with
  | error fault => rfl
  | ok met =>
    cases ending with
    | broken fault => rfl
    | closed stop =>
      simp only [Except.bind, Ending.check, Except.map, ofJson_members,
        Json.assemble_eq fun slot mem _ => optional slot mem]

theorem meeting_version (version : String) (room : Nat) (met : List (String × Option Json)) :
    Json.meeting ⟨.ok "apiVersion", 0, 0⟩ (.scalar (.string (.ok version)) 0 0)
        (Wire.slots Wire.reviewRequestShape) true room (fun name => (met.lookup name).isSome) =
      match met.lookup "apiVersion" with
      | some _ => .error (Json.blame (.duplicateField "apiVersion") 0)
      | none => .ok [("apiVersion", some (.string version))] := by
  cases isMet : met.lookup "apiVersion" <;> simp only [Json.meeting, Except.bind, isMet] <;> rfl

/-- What is met besides the version does not depend on it. -/
theorem ofMet_version {added met : List (String × Option Json)} {version : String}
    (found : (added ++ ("apiVersion", some (.string version)) :: met).lookup "apiVersion" =
      some (some (.string version))) :
    ofMet (added ++ ("apiVersion", some (.string version)) :: met) =
      (ofMet (added ++ met)).telling version := by
  have other (name : String) (ne : "apiVersion" ≠ name) :
      (added ++ ("apiVersion", some (.string version)) :: met).lookup name =
        (added ++ met).lookup name := by
    rw [List.lookup_append, List.lookup_append, Json.lookup_cons_of_ne ne]
  simp only [ofMet, found, other "kind" (by decide), other "request" (by decide)]
  rfl

theorem exists_read_object (before after : List (Key × Node)) (ending : Ending) (room : Nat) :
    ∃ result : Except Json.Fault ReviewRequest, ∀ version,
      (((Draft.object before after ending).telling version).read Wire.reviewRequestShape
        (room + 1)).map ofJson = result.map (·.telling version) := by
  simp only [Draft.telling, read_object, Json.readMembers_append]
  cases readMembers before (Wire.slots Wire.reviewRequestShape) true room [] with
  | error fault => exact ⟨.error fault, fun version => rfl⟩
  | ok met =>
    simp only [Except.bind, Json.readMembers_meeting, meeting_version]
    cases met.lookup "apiVersion" with
    | some entry => exact ⟨.error _, fun version => rfl⟩
    | none =>
      obtain ⟨result, rest⟩ := Json.exists_readMembers after (Wire.slots Wire.reviewRequestShape) room
        [] met "apiVersion"
      simp only [List.nil_append] at rest
      cases result with
      | error fault =>
        refine ⟨.error fault, fun version => ?_⟩
        simp only [List.singleton_append, rest]
        rfl
      | ok added =>
        refine ⟨ending.check.map fun _ => ofMet (added ++ met), fun version => ?_⟩
        obtain ⟨found, -⟩ := Json.lookup_readMembers_of_met (rest (some (.string version)))
          (by decide) List.lookup_cons_self
        simp only [List.singleton_append, rest, Except.map, ofMet_version found]
        cases ending <;> rfl

theorem read_list (kind : Node) (behind : List Node) (ending : Ending)
    (room : Nat) :
    ∃ rest : Except Json.Fault (List (String × Json)), ∀ version,
      ((Draft.list kind behind ending).telling version).read Wire.reviewRequestShape (room + 1) =
        (if kind.isNull then rest.map (("apiVersion", .string version) :: ·)
        else (kind.read .string room).bind fun kind =>
          (rest.map (("apiVersion", .string version) :: ·)).map (("kind", kind) :: ·)).map
            .object := by
  let expected := "struct AdmissionReviewRequest with " ++ toString 3 ++ " elements"
  let slots := [("request", Json.Presence.optional, Wire.requestShape)]
  refine ⟨Json.readPositions behind slots false 2 expected room ending, fun version => ?_⟩
  have told : Json.readPositions (.scalar (.string (.ok version)) 0 0 :: behind)
      (("apiVersion", .optional, .string) :: slots) false 1 expected room ending =
        (Json.readPositions behind slots false 2 expected room ending).map
          (("apiVersion", .string version) :: ·) :=
    Json.readPositions_cons ..
  rw [← told]
  exact congrArg (Except.map Json.object) (Json.readPositions_cons ..)

theorem exists_read_list (kind : Node) (behind : List Node) (ending : Ending) (room : Nat) :
    ∃ result : Except Json.Fault ReviewRequest, ∀ version,
      (((Draft.list kind behind ending).telling version).read Wire.reviewRequestShape
        (room + 1)).map ofJson = result.map (·.telling version) := by
  obtain ⟨rest, read⟩ := read_list kind behind ending room
  simp only [read]
  cases rest with
  | error fault =>
    cases kind.isNull with
    | true => exact ⟨.error fault, fun version => rfl⟩
    | false => cases kind.read .string room <;> exact ⟨.error _, fun version => rfl⟩
  | ok members =>
    cases kind.isNull with
    | true => exact ⟨.ok (ofJson (.object members)), fun version => rfl⟩
    | false =>
      cases kind.read .string room with
      | error fault => exact ⟨.error fault, fun version => rfl⟩
      | ok kind => exact ⟨.ok (ofJson (.object (("kind", kind) :: members))), fun version => rfl⟩

/-- What is read of a draft does not depend on its version, but for the version. -/
theorem exists_read (draft : Draft) (room : Nat) :
    ∃ result : Except Json.Fault ReviewRequest, ∀ version,
      ((draft.telling version).read Wire.reviewRequestShape room).map ofJson =
        result.map (·.telling version) := by
  cases room with
  | zero =>
    refine ⟨.error ⟨.recursionLimit, 1⟩, fun version => ?_⟩
    cases draft <;> rfl
  | succ room =>
    cases draft with
    | object before after ending => exact exists_read_object before after ending room
    | list kind behind ending => exact exists_read_list kind behind ending room

theorem agree_parse (body : Bytes) : Agree (parse body)
    (if (Json.document body).trailing.isSome then .error ⟨.trailingCharacters, 0⟩
    else ((Json.document body).root.plain.read Wire.reviewRequestShape
      Json.nestingLimit).map ofJson) := by
  rw [parse, Json.parseAs, Json.Document.readWith]
  have same := Json.read_plain (Json.document body).root Wire.reviewRequestShape Json.nestingLimit
  generalize (Json.document body).root.plain.read Wire.reviewRequestShape Json.nestingLimit = plain,
    (Json.document body).root.read Wire.reviewRequestShape Json.nestingLimit = result at same
  cases (Json.document body).trailing with
  | some fault => cases result <;> exact .error _ _
  | none => cases same <;> constructor

theorem exists_parse {newer older : Bytes} (counterparts : Counterparts newer older) :
    ∃ result : Except Json.Fault ReviewRequest,
      Agree (parse newer) (result.map (·.telling Generation.v1.apiVersion)) ∧
      Agree (parse older) (result.map (·.telling Generation.v1beta1.apiVersion)) := by
  obtain ⟨⟨draft, newer_root, older_root⟩, trailing⟩ := counterparts
  obtain ⟨result, read⟩ := exists_read draft Json.nestingLimit
  have newer_parsed := agree_parse newer
  have older_parsed := agree_parse older
  rw [newer_root, trailing, read] at newer_parsed
  rw [older_root, read] at older_parsed
  cases behind : (Json.document older).trailing.isSome with
  | true =>
    rw [behind] at newer_parsed older_parsed
    exact ⟨.error ⟨.trailingCharacters, 0⟩, newer_parsed, older_parsed⟩
  | false =>
    rw [behind] at newer_parsed older_parsed
    exact ⟨result, newer_parsed, older_parsed⟩

theorem generation_telling (review : ReviewRequest) (generation : Generation) :
    (review.telling generation.apiVersion).generation =
      if review.kind.getD "" = envelopeKind then .ok generation
      else .error (.unknownType generation.apiVersion (review.kind.getD "")) := by
  have apart : Generation.v1beta1.apiVersion ≠ Generation.v1.apiVersion := by decide +kernel
  by_cases kind : review.kind.getD "" = envelopeKind
  · rw [if_pos kind]
    cases generation with
    | v1 => exact if_pos ⟨kind, rfl⟩
    | v1beta1 => exact (if_neg fun both => apart both.2).trans (if_pos ⟨kind, rfl⟩)
  · rw [if_neg kind]
    exact (if_neg fun both => kind both.1).trans (if_neg fun both => kind both.1)

theorem toReview_telling (review : ReviewRequest) :
    (∀ generation : Generation, ∃ error,
      (review.telling generation.apiVersion).toReview = .error error) ∨
    ∃ converted : Review, ∀ generation : Generation,
      (review.telling generation.apiVersion).toReview = .ok { converted with generation } := by
  simp only [toReview, generation_telling]
  by_cases kind : review.kind.getD "" = envelopeKind
  · simp only [if_pos kind, telling]
    cases review.request with
    | none => exact .inl fun generation => ⟨_, rfl⟩
    | some request => exact .inr ⟨⟨_, _, _, _, .v1, _, _, _, _, _, _⟩, fun generation => rfl⟩
  · simp only [if_neg kind]
    exact .inl fun generation => ⟨_, rfl⟩

end ReviewRequest

def Review.inGeneration (review : Review) (generation : Generation) : Review :=
  { review with generation }

/-- One of two counterparts is decoded if the other is, and then to the same review but for the
generation. -/
theorem Review.decode_counterparts {newer older : Bytes} (counterparts : Counterparts newer older) :
    (∃ error other, decode newer = .error error ∧ decode older = .error other) ∨
      ∃ review : Review, decode newer = .ok (review.inGeneration .v1) ∧
        decode older = .ok (review.inGeneration .v1beta1) := by
  obtain ⟨result, newer_parsed, older_parsed⟩ := ReviewRequest.exists_parse counterparts
  simp only [decode]
  generalize ReviewRequest.parse newer = one, ReviewRequest.parse older = other at *
  cases result with
  | error fault =>
    cases newer_parsed
    cases older_parsed
    exact .inl ⟨_, _, rfl, rfl⟩
  | ok review =>
    cases newer_parsed
    cases older_parsed
    rcases review.toReview_telling with fails | ⟨converted, same⟩
    · obtain ⟨error, newer_error⟩ := fails .v1
      obtain ⟨other, older_error⟩ := fails .v1beta1
      exact .inl ⟨error, other, newer_error, older_error⟩
    · exact .inr ⟨converted, same .v1, same .v1beta1⟩

/-! ## Answers -/

/-- Two answers that are the same, but each tells its own version, and the older one has no
warnings. -/
structure SameDecision (newer older : Json) : Prop where
  newerVersion : newer.at? ["apiVersion"] = some (.string "admission.k8s.io/v1")
  olderVersion : older.at? ["apiVersion"] = some (.string "admission.k8s.io/v1beta1")
  envelope : ∀ key, key ≠ "apiVersion" → key ≠ "response" → newer.at? [key] = older.at? [key]
  response : ∀ key, key ≠ "warnings" → newer.at? ["response", key] = older.at? ["response", key]
  noWarnings : older.at? ["response", "warnings"] = none

theorem AdmissionResponse.find?_withoutWarnings (response : AdmissionResponse) {key : String}
    (ne : key ≠ "warnings") :
    Entries.find? ({ response with warnings := none } : AdmissionResponse).members key =
      Entries.find? response.members key := by
  have last (value : Option Json) : Entries.find? (Wire.optional "warnings" value) key = none := by
    rw [Wire.find?_optional, if_neg (Ne.symm ne)]
  simp only [members, Entries.find?_append, last]

namespace ReviewResponse

theorem at?_envelope (review : ReviewResponse) (key : String) :
    (Json.Tree.ofJson review.toJson).json.at? [key] =
      (Entries.find? [("kind", Json.string review.kind), ("apiVersion", .string review.apiVersion),
        ("response", review.response.toJson)] key).map fun value => (Json.Tree.ofJson value).json :=
  (Json.Tree.at?_ofJson (by simp [Entries.keys]) key []).trans (Option.map_eq_bind ..).symm

theorem sameDecision_new (response : AdmissionResponse) :
    SameDecision (Json.Tree.ofJson (new .v1 response).toJson).json
      (Json.Tree.ofJson (new .v1beta1 response).toJson).json where
  newerVersion := at?_apiVersion _
  olderVersion := at?_apiVersion _
  envelope key notVersion notResponse := by
    simp only [at?_envelope, Entries.find?, if_neg (Ne.symm notVersion), if_neg (Ne.symm notResponse)]
    rfl
  response key notWarnings := by
    rw [at?_member, at?_member]
    exact congrArg _ (response.find?_withoutWarnings notWarnings).symm
  noWarnings := by
    rw [at?_member, AdmissionResponse.find?_warnings]
    rfl

end ReviewResponse

end Admission
