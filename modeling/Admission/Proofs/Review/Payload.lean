import Admission.Proofs.Object.Creation
import Admission.Proofs.Review.Received

/-! The object under review on its way from the body of a request into a webhook. It is printed and
read again between the two, and comes out as it went in. -/

set_option autoImplicit false

namespace Admission

theorem Operation.objectMember_ofWire (name : String) :
    (ofWire name).objectMember = if name = "DELETE" then "oldObject" else "object" := by
  have delete : ofWire name = .delete ↔ name = "DELETE" := by
    unfold ofWire
    split <;> simp_all
  simp only [objectMember, delete]

namespace Review

/-- The node of the object under review in a body: of the object that goes away if the request tells
to delete it, or else of the one that comes. -/
def payload? (body : Bytes) : Option Json.Node :=
  (requestNode? body).bind fun request =>
    request.member? (Wire.names Wire.requestShape)
      (if operationName request = "DELETE" then "oldObject" else "object")

theorem TakenFrom.payload?_eq {body : Bytes} {review : Review} {request : Json.Node}
    {object : Option Json} (taken : review.TakenFrom request object)
    (node : requestNode? body = some request) : payload? body =
      request.member? (Wire.names Wire.requestShape) review.operation.objectMember := by
  rw [payload?, node, Option.bind_some, taken.operation, Operation.objectMember_ofWire]

/-- The raw object is the text of the value of the payload. A null that was passed over has no text,
as if it was read. -/
theorem TakenFrom.exists_payload {body : Bytes} {review : Review} {request : Json.Node}
    {object : Option Json} (taken : review.TakenFrom request object)
    (node : requestNode? body = some request) : ∃ payload : Option Json.Tree,
      (payload? body).map (·.value (Json.nestingLimit - 2)) = payload.map .ok ∧
      review.rawObject = rawBytes (payload.map Json.Tree.json) := by
  obtain ⟨payload, value, object_eq⟩ := taken.payload.exists_tree
  rw [← taken.payload?_eq node] at value
  refine ⟨payload, value, taken.rawObject.trans ?_⟩
  rcases object_eq with rfl | ⟨rfl, rfl⟩ <;> rfl

/-- The object under review is handed over unchanged. Where there is none, or null, the raw object is
empty and no creator makes anything of it. Any other value is read from the raw object, which is JSON,
so that it is never tried as YAML. Its numbers are read once more then, which changes no integer. -/
theorem payload_unchanged {body : Bytes} {review : Review} (decoded : decode body = .ok review) :
    ∃ payload : Option Json.Tree,
      (payload? body).map (·.value (Json.nestingLimit - 2)) = payload.map .ok ∧
      (∀ whole, Json.parse body = .ok whole → ∀ value,
        whole.json.at? ["request", review.operation.objectMember] = some value →
        payload.map Json.Tree.json = some value) ∧
      (payload = none ∨ payload = some .null → review.rawObject = [] ∧
        ∀ creator : Creator, (creator.newObject review.rawObject).result = .error .empty) ∧
      ∀ tree, payload = some tree → tree ≠ .null →
        Json.parse review.rawObject = .ok tree.reread ∧
        decodeRaw review.rawObject = .ok tree.reread ∧
        (tree.json.Integral → tree.reread = tree) := by
  obtain ⟨request, node, taken⟩ := takenFrom_of_decode decoded
  obtain ⟨payload, value, raw⟩ := taken.exists_payload node
  refine ⟨payload, value, fun whole parsed json stands => ?_, fun nothing => ?_,
    fun tree payload_eq ne => ?_⟩
  · obtain ⟨other, tree, found, (other_value : other.value (Json.nestingLimit - 2) = _), rfl⟩ :=
      taken.stands node decoded parsed stands
    rw [taken.payload?_eq node, found, Option.map_some, other_value] at value
    cases payload with
    | none => cases value
    | some payload =>
      cases value
      rfl
  · have empty : review.rawObject = [] := by
      rcases nothing with rfl | rfl <;> exact raw
    rw [empty]
    exact ⟨rfl, fun creator => rfl⟩
  · subst payload_eq
    -- the object stands within two brackets, so that alone it nests less deep than a text may
    have fits : tree.json.depth ≤ Json.nestingLimit := by
      obtain ⟨object, -, value⟩ := Option.map_eq_some_iff.1 value
      exact (Json.depth_of_value object value).trans (by decide)
    have same : .ofJson tree.json.reread = tree.reread :=
      Json.Tree.ext_json (Json.Tree.json_ofJson tree.canonical.reread)
    rw [raw, Option.map_some]
    obtain ⟨parsed, held⟩ := decodeRaw_of_ne_null (fun null => ne (Json.Tree.ext_json null)) fits
    rw [same] at parsed held
    exact ⟨parsed, held, fun integral => Json.Tree.ext_json integral.readsBack⟩

def deletion : Bytes :=
  Text.utf8Bytes
    ("\x7b\"kind\":\"AdmissionReview\",\"apiVersion\":\"admission.k8s.io/v1\",\"request\":" ++
      "\x7b\"operation\":\"DELETE\",\"object\":\x7b\x7d," ++
      "\"oldObject\":\x7b\"b\":[],\"a\":null\x7d\x7d\x7d")

set_option maxRecDepth 8000 in
theorem payload_unchanged_deletion : ∃ review tree, decode deletion = .ok review ∧
    tree.json = .object [("a", .null), ("b", .array [])] ∧
    decodeRaw review.rawObject = .ok tree := by
  obtain ⟨review, decoded⟩ : ∃ review, decode deletion = .ok review := ⟨_, rfl⟩
  obtain ⟨payload, value, -, -, present⟩ := payload_unchanged decoded
  have old : (payload? deletion).map (·.value (Json.nestingLimit - 2)) =
      some (.ok (.ofJson (.object [("a", .null), ("b", .array [])]))) := rfl
  rw [old] at value
  cases payload with
  | none => cases value
  | some tree =>
    cases value
    have ne : Json.Tree.ofJson (.object [("a", .null), ("b", .array [])]) ≠ .null := by
      intro null
      cases congrArg Json.Tree.json null
    exact ⟨review, _, decoded, rfl, (present _ rfl ne).2.1⟩

end Review

end Admission
