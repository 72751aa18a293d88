import Admission.Proofs.Json.Acceptance
import Admission.Proofs.Json.Rendering
import Admission.Proofs.Json.Sameness
import Admission.Proofs.Review.Received

/-! A review is decoded from what its body says. Neither the order of members matters nor whitespace,
escapes or members of unknown names. -/

set_option autoImplicit false

namespace Admission

namespace Json.Outline

/-- The member of a record: under its name in an object, at its place in a list. -/
def member? (outline : Outline) (names : List String) (name : String) : Option Outline :=
  match outline with
  | .object members => (members.find? fun member => member.1 = some name).map Prod.snd
  | .array items => (names.zip items).lookup name
  | .atom _ => none

def text? : Outline → Option String
  | .atom (.string text) => text
  | _ => none

def isNull : Outline → Bool
  | .atom .null => true
  | _ => false

theorem nodeUnder?_memberNodes (members : List (Option String × Outline)) (name : String) :
    nodeUnder? (memberNodes members) name =
      ((members.find? fun member => member.1 = some name).map Prod.snd).map node := by
  induction members with
  | nil => rfl
  | cons member members ih =>
    obtain ⟨other, value⟩ := member
    cases other with
    | none => simpa [nodeUnder?, memberNodes, orFault, Except.toOption] using ih
    | some other =>
      rw [memberNodes, nodeUnder?_cons rfl, ih]
      by_cases eq : other = name <;> simp [eq]

theorem lookup_zip_itemNodes (names : List String) (items : List Outline) (name : String) :
    (names.zip (itemNodes items)).lookup name = ((names.zip items).lookup name).map node := by
  induction names generalizing items with
  | nil => rfl
  | cons first names ih =>
    cases items with
    | nil => rfl
    | cons item items =>
      rw [itemNodes, List.zip_cons_cons, List.zip_cons_cons, List.lookup_cons, List.lookup_cons, ih]
      cases name == first <;> rfl

theorem member?_node (outline : Outline) (names : List String) (name : String) :
    outline.node.member? names name = (outline.member? names name).map node := by
  cases outline with
  | atom atom => rfl
  | array items => exact lookup_zip_itemNodes names items name
  | object members => exact nodeUnder?_memberNodes members name

theorem text_node (outline : Outline) :
    outline.node.text.toOption.bind string? = outline.text? := by
  cases outline with
  | array | object => rfl
  | atom atom =>
    cases atom with
    | string text => cases text <;> rfl
    | _ => rfl

theorem isNull_node (outline : Outline) : outline.node.isNull = outline.isNull := by
  cases outline with
  | array | object => rfl
  | atom atom => cases atom <;> rfl

end Json.Outline

namespace Review

open Json (Outline)

def Readable (envelope : Outline) : Prop :=
  ∃ json, envelope.node.read Wire.reviewRequestShape Json.nestingLimit = .ok json

def told (envelope : Outline) (name : String) : String :=
  ((envelope.member? (Wire.names Wire.reviewRequestShape) name).bind Outline.text?).getD ""

def HasType (envelope : Outline) (generation : Generation) : Prop :=
  told envelope "kind" = envelopeKind ∧ told envelope "apiVersion" = generation.apiVersion

def request? (envelope : Outline) : Option Outline :=
  (envelope.member? (Wire.names Wire.reviewRequestShape) "request").filter (! ·.isNull)

/-- What becomes of an envelope. Of all that is wrong with it the content counts first, then the
type, then the request. -/
inductive Fate (envelope : Outline) : Except DecodeError Review → Prop where
  | malformed (error : Json.Error) (unreadable : ¬ Readable envelope) :
    Fate envelope (.error (.malformed error))
  | unknownType (readable : Readable envelope)
    (unknown : ∀ generation, ¬ HasType envelope generation) :
    Fate envelope (.error (.unknownType (told envelope "apiVersion") (told envelope "kind")))
  | missingRequest {generation : Generation} (readable : Readable envelope)
    (hasType : HasType envelope generation) (missing : request? envelope = none) :
    Fate envelope (.error .missingRequest)
  | decoded (review : Review) (readable : Readable envelope)
    (hasType : HasType envelope review.generation) (present : (request? envelope).isSome = true) :
    Fate envelope (.ok review)

inductive DecodedAlike : Except DecodeError Review → Except DecodeError Review → Prop where
  | decoded (review : Review) : DecodedAlike (.ok review) (.ok review)
  | malformed (error other : Json.Error) :
    DecodedAlike (.error (.malformed error)) (.error (.malformed other))
  | unknownType (apiVersion kind : String) :
    DecodedAlike (.error (.unknownType apiVersion kind)) (.error (.unknownType apiVersion kind))
  | missingRequest : DecodedAlike (.error .missingRequest) (.error .missingRequest)

namespace DecodedAlike

theorem refl (result : Except DecodeError Review) : DecodedAlike result result := by
  cases result with
  | ok review => exact .decoded review
  | error error => cases error <;> constructor

end DecodedAlike

structure ReadFrom (wire : ReviewRequest) (envelope : Outline) : Prop where
  kind : wire.kind.getD "" = told envelope "kind"
  apiVersion : wire.apiVersion.getD "" = told envelope "apiVersion"
  request : wire.request.isSome = (request? envelope).isSome

/-- A record is read where there is one, and nothing where null stands for it. -/
theorem isSome_of_slotRead {recordName : String} {form : Json.RecordForm} {slots : List Json.Slot}
    {room : Nat} {outline? : Option Outline} {value? : Option Json}
    (read : Json.SlotRead .optional (.record recordName form slots) room (outline?.map Outline.node)
      value?) : value?.isSome = (outline?.filter (! ·.isNull)).isSome := by
  cases outline? with
  | none =>
    cases read with
    | left => rfl
    | filled defaulted => cases defaulted
  | some outline =>
    have filtered : ((some outline).filter (! ·.isNull)).isSome = ! outline.isNull := by
      cases null : outline.isNull <;> simp [Option.filter, null]
    rw [filtered]
    cases read with
    | met met =>
      cases met with
      | null _ null => rw [← outline.isNull_node, null]; rfl
      | value read =>
        cases outline with
        | atom atom => cases form <;> cases read
        | _ => rfl

theorem told_node (envelope : Outline) (name : String) :
    ((envelope.node.member? (Wire.names Wire.reviewRequestShape) name).bind fun node =>
      node.text.toOption.bind Json.string?).getD "" = told envelope name := by
  rw [envelope.member?_node, told]
  cases envelope.member? (Wire.names Wire.reviewRequestShape) name with
  | none => rfl
  | some outline => rw [Option.map_some, Option.bind_some, Option.bind_some, outline.text_node]

theorem readFrom_of_read {envelope : Outline} {json : Json}
    (read : envelope.node.read Wire.reviewRequestShape Json.nestingLimit = .ok json) :
    ReadFrom (.ofJson json) envelope := by
  obtain ⟨_, members, -, rfl, filled⟩ := Json.fills_of_record Wire.nodup_names_review read
  have text {name : String} (mem : (name, Wire.optionalText) ∈ Wire.slots Wire.reviewRequestShape) :
      ((Entries.find? members name).bind Json.string?).getD "" = told envelope name :=
    ((filled.find? Wire.nodup_names_review mem).text (by rintro json ⟨⟩)).trans
      (told_node envelope name)
  have request := filled.find? Wire.nodup_names_review Wire.mem_slots_review
  refine ⟨text (by simp [Wire.slots, Wire.reviewRequestShape]),
    text (by simp [Wire.slots, Wire.reviewRequestShape]), ?_⟩
  have node := envelope.member?_node (Wire.names Wire.reviewRequestShape) "request"
  exact Option.isSome_map.trans (isSome_of_slotRead (node ▸ request))

theorem generation_cases (wire : ReviewRequest) :
    (∃ generation : Generation, wire.generation = .ok generation ∧
      wire.kind.getD "" = envelopeKind ∧ wire.apiVersion.getD "" = generation.apiVersion) ∨
    (wire.generation = .error (.unknownType (wire.apiVersion.getD "") (wire.kind.getD "")) ∧
      ∀ generation : Generation,
        ¬ (wire.kind.getD "" = envelopeKind ∧ wire.apiVersion.getD "" = generation.apiVersion)) := by
  rw [ReviewRequest.generation]
  split
  · rename_i newer
    exact .inl ⟨.v1, rfl, newer⟩
  · rename_i notNewer
    split
    · rename_i older
      exact .inl ⟨.v1beta1, rfl, older⟩
    · rename_i notOlder
      refine .inr ⟨rfl, fun generation => ?_⟩
      cases generation with
      | v1 => exact notNewer
      | v1beta1 => exact notOlder

theorem fate_of_read {envelope : Outline} {wire : ReviewRequest} (readable : Readable envelope)
    (from_envelope : ReadFrom wire envelope) : Fate envelope wire.toReview := by
  obtain ⟨kind, apiVersion, request⟩ := from_envelope
  rw [ReviewRequest.toReview]
  rcases generation_cases wire with ⟨generation, generation_eq, hasType⟩ | ⟨unknown_eq, unknown⟩
  · rw [kind, apiVersion] at hasType
    rw [generation_eq]
    cases found : wire.request with
    | none =>
      rw [found] at request
      exact .missingRequest readable hasType (Option.not_isSome_iff_eq_none.1 (by simp [← request]))
    | some inner =>
      rw [found] at request
      exact .decoded _ readable hasType request.symm
  · rw [kind, apiVersion] at unknown_eq
    simp only [kind, apiVersion] at unknown
    rw [unknown_eq]
    exact .unknownType readable unknown

theorem fate_of_spelled {body : Bytes} {envelope : Outline} (spelled : envelope.SpelledBy body) :
    Fate envelope (decode body) := by
  have read := Json.parseAs_spelled spelled Wire.reviewRequestShape
  rw [decode, ReviewRequest.parse]
  generalize eq : envelope.node.read Wire.reviewRequestShape Json.nestingLimit = result,
    Json.parseAs Wire.reviewRequestShape body = parsed at read
  cases read with
  | error error fault =>
    refine .malformed error ?_
    rintro ⟨json, readable⟩
    cases eq.symm.trans readable
  | ok json => exact fate_of_read ⟨json, eq⟩ (readFrom_of_read eq)

/-- A body is malformed unless it is the text of an envelope that can be read. -/
theorem decode_malformed_iff (body : Bytes) : (∃ error, decode body = .error (.malformed error)) ↔
    ∀ envelope : Outline, envelope.SpelledBy body → ¬ Readable envelope := by
  constructor
  · rintro ⟨error, malformed⟩ envelope spelled
    have fate := fate_of_spelled spelled
    rw [malformed] at fate
    cases fate with
    | malformed _ unreadable => exact unreadable
  · intro unreadable
    rw [decode, ReviewRequest.parse]
    cases parsed : Json.parseAs Wire.reviewRequestShape body with
    | error error => exact ⟨error, rfl⟩
    | ok json =>
      obtain ⟨envelope, spelled⟩ := Json.spelled_of_parseAs parsed
      have read := (Json.parseAs_spelled spelled Wire.reviewRequestShape).eq_ok parsed
      exact absurd ⟨json, read⟩ (unreadable envelope spelled)

theorem decodedAlike_of_agree {first second : Bytes}
    (agree : Json.Agree (Json.parseAs Wire.reviewRequestShape first)
      (Json.parseAs Wire.reviewRequestShape second)) :
    DecodedAlike (decode first) (decode second) := by
  simp only [decode, ReviewRequest.parse]
  generalize Json.parseAs Wire.reviewRequestShape first = one,
    Json.parseAs Wire.reviewRequestShape second = other at agree
  cases agree with
  | error fault fault' => exact .malformed _ _
  | ok json => exact .refl _

/-- Bodies that say the same are decoded to one review, or fail alike, whatever the order of their
members, whitespace and escapes and whatever they tell under names that the envelope or a record in it
does not know. A content of the wrong shape is complained about before an unknown type, and that
before a missing request. Bodies that say nothing at all are malformed, and so are all in which no
content of the right shape is said. -/
theorem decode_depends_on_content {first second : Bytes} {envelope other : Outline}
    (one : envelope.SpelledBy first) (another : other.SpelledBy second)
    (same : Outline.SameAs Wire.reviewRequestShape envelope other) :
    DecodedAlike (decode first) (decode second) ∧ Fate envelope (decode first) ∧
    ∀ body, (∃ error, decode body = .error (.malformed error)) ↔
      ∀ envelope : Outline, envelope.SpelledBy body → ¬ Readable envelope := by
  have read_one := Json.parseAs_spelled one Wire.reviewRequestShape
  have read_other := Json.parseAs_spelled another Wire.reviewRequestShape
  have alike := same.alike.read Json.nestingLimit
  exact ⟨decodedAlike_of_agree ((read_one.trans alike).trans read_other.symm), fate_of_spelled one,
    decode_malformed_iff⟩

theorem spells_escaped_kind : Json.SpellsMark (Text.utf8Bytes "\"AdmissionR\\u0065view\"")
    (.atom (.string (some envelopeKind))) := by
  have before : ∀ byte ∈ Text.utf8Bytes "AdmissionR", Json.IsPlain byte := by decide +kernel
  have after : ∀ byte ∈ Text.utf8Bytes "view", Json.IsPlain byte := by decide +kernel
  have unit : Json.hexUnit? 48 48 54 53 = some 0x65 := by decide
  exact .string (Json.spellsSigns_plain before (.unit unit (Json.spellsSigns_plain after .nil)))

/-- A review is the same in a text with blanks, an escape, the request in front and an unknown member
in it. -/
theorem decode_depends_on_content_respelled :
    let first := Text.utf8Bytes
      "\x7b\"kind\":\"AdmissionReview\",\"apiVersion\":\"admission.k8s.io/v1\",\"request\":\x7b\x7d\x7d"
    let second := Text.utf8Bytes
      "\x7b \"request\" : \x7b\"x\":null\x7d,\"kind\":\"AdmissionR\\u0065view\",\"apiVersion\":\"admission.k8s.io/v1\"\x7d"
    let kind : Outline := .atom (.string (some "AdmissionReview"))
    let version : Outline := .atom (.string (some "admission.k8s.io/v1"))
    let envelope : Outline :=
      .object [(some "kind", kind), (some "apiVersion", version), (some "request", .object [])]
    let other : Outline := .object
      [(some "request", .object [(some "x", .atom .null)]), (some "kind", kind),
        (some "apiVersion", version)]
    envelope.SpelledBy first ∧ other.SpelledBy second ∧
      Outline.SameAs Wire.reviewRequestShape envelope other ∧
      DecodedAlike (decode first) (decode second) ∧ Fate envelope (decode first) := by
  intro first second kind version envelope other
  have blank : Json.Blank [32] := by simp [Json.Blank, Json.isBlank]
  have one : envelope.SpelledBy first :=
    .cons .openObject <| .cons (Json.spellsMark_string "kind") <| .cons .colon <|
      .cons (Json.spellsMark_string "AdmissionReview") <| .cons .comma <|
      .cons (Json.spellsMark_string "apiVersion") <| .cons .colon <|
      .cons (Json.spellsMark_string "admission.k8s.io/v1") <| .cons .comma <|
      .cons (Json.spellsMark_string "request") <| .cons .colon <| .cons .openObject <|
      .cons .closeObject <| .cons .closeObject <| .finish Json.blank_nil
  have another : other.SpelledBy second :=
    .cons .openObject <| .mark blank (Json.spellsMark_string "request") <| .mark blank .colon <|
      .mark blank .openObject <| .cons (Json.spellsMark_string "x") <| .cons .colon <|
      .cons .null <| .cons .closeObject <| .cons .comma <|
      .cons (Json.spellsMark_string "kind") <| .cons .colon <|
      .cons spells_escaped_kind <| .cons .comma <|
      .cons (Json.spellsMark_string "apiVersion") <| .cons .colon <|
      .cons (Json.spellsMark_string "admission.k8s.io/v1") <| .cons .closeObject <|
      .finish Json.blank_nil
  have unknown : Outline.SameAs Wire.requestShape (.object []) (.object [(some "x", .atom .null)]) :=
    .unknown _ _ [] [] (by decide) _
  have member : Outline.SameAs Wire.reviewRequestShape envelope (.object
      [(some "kind", kind), (some "apiVersion", version),
        (some "request", .object [(some "x", .atom .null)])]) :=
    .member _ _ [(some "kind", kind), (some "apiVersion", version)] [] rfl unknown
  have front := List.perm_append_singleton (some "request", Outline.object [(some "x", .atom .null)])
    [(some "kind", kind), (some "apiVersion", version)]
  have order : Outline.Same (.object [(some "kind", kind), (some "apiVersion", version),
      (some "request", .object [(some "x", .atom .null)])]) other :=
    .order (by decide) front
  have same := member.trans (.same Wire.reviewRequestShape order)
  obtain ⟨alike, fate, -⟩ := decode_depends_on_content one another same
  exact ⟨one, another, same, alike, fate⟩

end Review

end Admission
