import Admission.Proofs.Json.Records
import Admission.Review.Wire

/-! The object that a review is about, as it stands in the body of the request: the webhook is given
the text of the very value that a reader of the body finds there. -/

set_option autoImplicit false

namespace Admission

def Operation.objectMember (operation : Operation) : String :=
  if operation = .delete then "oldObject" else "object"

namespace AdmissionRequest

def selected (request : AdmissionRequest) : Option Json :=
  if Operation.ofWire request.operation = .delete then request.oldObject else request.object

theorem selected_ofJson (json : Json) : (ofJson json).selected =
    json.member? (Operation.ofWire (ofJson json).operation).objectMember := by
  rw [selected, Operation.objectMember]
  split <;> rfl

end AdmissionRequest

def Review.received? (body : Bytes) : Option Json :=
  match ReviewRequest.parse body with
  | .error _ => none
  | .ok wire => wire.request.bind AdmissionRequest.selected

namespace Wire

def slots : Json.Shape → List Json.Slot
  | .record _ _ slots => slots
  | _ => []

def names (shape : Json.Shape) : List String :=
  (slots shape).map Prod.fst

theorem nodup_names_review : (names reviewRequestShape).Nodup := by
  decide

theorem nodup_names_request : (names requestShape).Nodup := by
  decide

theorem mem_slots_review : ("request", .optional, requestShape) ∈ slots reviewRequestShape := by
  simp [slots, reviewRequestShape]

theorem mem_slots_operation : ("operation", emptyText, .string) ∈ slots requestShape := by
  simp [slots, requestShape]

theorem mem_slots_object (operation : Operation) :
    (operation.objectMember, .optional, .any) ∈ slots requestShape := by
  rw [Operation.objectMember]
  split <;> simp [slots, requestShape]

end Wire

def Review.requestNode? (body : Bytes) : Option Json.Node :=
  (Json.document body).root.member? (Wire.names Wire.reviewRequestShape) "request"

def Review.operationName (request : Json.Node) : String :=
  ((request.member? (Wire.names Wire.requestShape) "operation").bind fun node =>
    node.text.toOption.bind Json.string?).getD ""

/-- What is no index is the key of a member. -/
theorem Json.step?_eq_member? {key : String} (notIndex : Pointer.index? key = none) (json : Json) :
    json.step? key = json.member? key := by
  cases json with
  | array items => rw [step?, notIndex]; rfl
  | _ => rfl

namespace Review

theorem index?_objectMember (operation : Operation) :
    Json.Pointer.index? operation.objectMember = none := by
  rw [Operation.objectMember]
  split <;> decide

theorem parse_of_decode {body : Bytes} {review : Review} (decoded : decode body = .ok review) :
    ∃ wire, ReviewRequest.parse body = .ok wire ∧ wire.toReview = .ok review := by
  rw [decode] at decoded
  split at decoded
  · cases decoded
  · exact ⟨_, by assumption, decoded⟩

theorem request_of_toReview {wire : ReviewRequest} {review : Review}
    (converted : wire.toReview = .ok review) : ∃ request, wire.request = some request ∧
      review.operation = .ofWire request.operation ∧ review.rawObject = rawBytes request.selected := by
  rw [ReviewRequest.toReview] at converted
  split at converted
  · cases converted
  · cases converted
  · rename_i generation request _ request_eq
    cases converted
    refine ⟨request, request_eq, rfl, ?_⟩
    rw [rawObject, AdmissionRequest.selected]
    split <;> rfl

/-- What a review takes from the node of its request, `object` being the object in it. -/
structure TakenFrom (review : Review) (request : Json.Node) (object : Option Json) : Prop where
  isRequest : ∃ json, request.read Wire.requestShape 126 = .ok json
  operation : review.operation = .ofWire (operationName request)
  payload : Json.SlotRead .optional .any 125
    (request.member? (Wire.names Wire.requestShape) review.operation.objectMember) object
  rawObject : review.rawObject = rawBytes object

theorem takenFrom_of_decode {body : Bytes} {review : Review} (decoded : decode body = .ok review) :
    ∃ request, requestNode? body = some request ∧ review.TakenFrom request (received? body) := by
  obtain ⟨wire, parsed, converted⟩ := parse_of_decode decoded
  obtain ⟨request, request_eq, operation_eq, raw_eq⟩ := request_of_toReview converted
  have received_eq : received? body = request.selected := by
    rw [received?, parsed]
    simp only [request_eq, Option.bind_some]
  obtain ⟨json, read, rfl⟩ := Json.map_eq_ok parsed
  obtain ⟨inner, found, rfl⟩ := Option.map_eq_some_iff.1 request_eq
  rw [← received_eq] at raw_eq
  rw [AdmissionRequest.selected_ofJson, ← operation_eq] at received_eq
  -- two brackets stand around the object: that of the envelope and that of the request
  obtain ⟨_, members, room_eq, rfl, filled⟩ :=
    Json.fills_of_record Wire.nodup_names_review (Json.read_of_parseAs read)
  cases room_eq
  obtain ⟨request, node_eq, request_read⟩ :=
    (filled.find? Wire.nodup_names_review Wire.mem_slots_review).exists_node found
  obtain ⟨_, members, room_eq, rfl, filled⟩ :=
    Json.fills_of_record Wire.nodup_names_request request_read
  cases room_eq
  refine ⟨request, node_eq, ⟨_, request_read⟩, operation_eq.trans ?_, ?_, raw_eq⟩
  · have operation := filled.find? Wire.nodup_names_request Wire.mem_slots_operation
    exact congrArg Operation.ofWire (operation.text (by rintro json ⟨⟩; rfl))
  · rw [received_eq]
    exact filled.find? Wire.nodup_names_request (Wire.mem_slots_object review.operation)

/-- If a body as a whole is a value, the object in the request of that value is the value of the node
of the object. -/
theorem TakenFrom.stands {body : Bytes} {review : Review} {request : Json.Node}
    {object : Option Json} (taken : review.TakenFrom request object)
    (node : requestNode? body = some request) (decoded : decode body = .ok review)
    {whole : Json.Tree} (parsed : Json.parse body = .ok whole) {value : Json}
    (stands : whole.json.at? ["request", review.operation.objectMember] = some value) :
    ∃ node tree, request.member? (Wire.names Wire.requestShape) review.operation.objectMember =
      some node ∧ node.value 125 = .ok tree ∧ tree.json = value := by
  obtain ⟨wire, read, -⟩ := parse_of_decode decoded
  obtain ⟨json, read, -⟩ := Json.map_eq_ok read
  obtain ⟨inner, request_read⟩ := taken.isRequest
  obtain ⟨outer, stands_request, stands⟩ := Option.bind_eq_some_iff.1 stands
  obtain ⟨_, stands_object, stands⟩ := Option.bind_eq_some_iff.1 stands
  cases stands
  rw [Json.step?_eq_member? (by decide)] at stands_request
  rw [Json.step?_eq_member? (index?_objectMember _)] at stands_object
  obtain ⟨_, tree, found, request_value, rfl⟩ :=
    Json.node_of_member Wire.nodup_names_review (Json.read_of_parseAs read) Wire.mem_slots_review
      (Json.value_of_parse parsed) stands_request
  cases node.symm.trans found
  exact Json.node_of_member Wire.nodup_names_request request_read
    (Wire.mem_slots_object review.operation) request_value stands_object

theorem node_of_received {body : Bytes} {review : Review} {object : Json}
    (decoded : decode body = .ok review) (received : received? body = some object) :
    ∃ (node : Json.Node) (tree : Json.Tree), node.value 125 = .ok tree ∧ tree.json = object ∧
      review.rawObject = rawBytes object ∧
      ∀ whole, Json.parse body = .ok whole → ∀ other,
        whole.json.at? ["request", review.operation.objectMember] = some other →
        other = object := by
  obtain ⟨request, request_eq, taken⟩ := takenFrom_of_decode decoded
  obtain ⟨node, node_eq, read⟩ := taken.payload.exists_node received
  -- a shape that takes anything takes the value of the node
  obtain ⟨tree, value, rfl⟩ := Json.map_eq_ok (node.read_any 125 ▸ read)
  refine ⟨node, tree, value, rfl, received ▸ taken.rawObject, fun whole parsed other stands => ?_⟩
  obtain ⟨_, _, found, other_value, rfl⟩ := taken.stands request_eq decoded parsed stands
  cases node_eq.symm.trans found
  cases value.symm.trans other_value
  rfl

end Review

end Admission
