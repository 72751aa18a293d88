import Admission.Object.Creator
import Admission.Proofs.Json.Rendering
import Admission.Proofs.Object.Generic
import Admission.Review.Wire

/-! Objects that come into being without a type: the tree they were made of is the one they are
written as. -/

set_option autoImplicit false

namespace Admission

def Object.unstructured (json : Json) : Object :=
  .generic (.ofTree (.ofJson json))

theorem Object.toJson_unstructured {json : Json} (canonical : json.Canonical) :
    (unstructured json).toJson = json :=
  (congrArg Json.Tree.json (Generic.toTree_ofTree _)).trans (Json.Tree.json_ofJson canonical)

theorem rawBytes_of_ne_null {json : Json} (ne : json ≠ .null) :
    rawBytes (some json) = Text.utf8Bytes json.render := by
  cases json with
  | null => exact absurd rfl ne
  | _ => rfl

theorem decodeRaw_of_ne_null {json : Json} (ne : json ≠ .null)
    (fits : json.depth ≤ Json.nestingLimit) :
    Json.parse (rawBytes (some json)) = .ok (.ofJson json.reread) ∧
      decodeRaw (rawBytes (some json)) = .ok (.ofJson json.reread) := by
  have parsed : Json.parse (rawBytes (some json)) = .ok (.ofJson json.reread) := by
    rw [rawBytes_of_ne_null ne, Json.parse_eq]
    exact Json.parseWithin_render json fits
  refine ⟨parsed, ?_⟩
  cases raw : rawBytes (some json) with
  | nil =>
    rw [raw] at parsed
    cases parsed
  | cons byte bytes =>
    rw [raw] at parsed
    simp only [decodeRaw, List.isEmpty_cons, parsed]
    rfl

/-- A raw text that was printed from an object holds that object, with its numbers re-read. -/
theorem decodeRaw_rawBytes {json : Json} (object : json.isObject = true)
    (fits : json.depth ≤ Json.nestingLimit) :
    decodeRaw (rawBytes (some json)) = .ok (.ofJson json.reread) :=
  (decodeRaw_of_ne_null (fun null => by subst null; cases object) fits).2

def Registry.Declines (registry : Registry) (json : Json) : Prop :=
  ∀ name kind, GroupVersionKind.ofObject? json = some name →
    registry.find? name = some (.type kind) → ∀ object, Typed.decode kind json ≠ .ok object

theorem Creator.ofTree_of_declines {registry : Registry} {tree : Json.Tree}
    (declines : registry.Declines tree.json) :
    ((dynamic registry).ofTree tree).result = genericObject tree := by
  rw [ofTree]
  cases named : GroupVersionKind.ofObject? tree.json with
  | none => rfl
  | some name =>
    cases found : registry.find? name with
    | none => simp [found]
    | some registration =>
      cases registration with
      | partialMetadata => simp [found]
      | type kind =>
        cases decoded : Typed.decode kind tree.json with
        | ok object => exact absurd decoded (declines name kind named found object)
        | error cause => simp [found, decoded]

theorem Creator.newObject_rawBytes {registry : Registry} {json : Json}
    (canonical : json.Canonical) (object : json.isObject = true)
    (fits : json.depth ≤ Json.nestingLimit) (reads : json.ReadsBack)
    (declines : registry.Declines json) :
    ((dynamic registry).newObject (rawBytes (some json))).result = .ok (.unstructured json) := by
  have json_eq := Json.Tree.json_ofJson canonical
  -- the text of the object is JSON, so that it is never tried as YAML
  rw [newObject, decodeRaw_rawBytes object fits, reads]
  refine (ofTree_of_declines (json_eq.symm ▸ declines)).trans ?_
  rw [genericObject, Generic.ofTree?, json_eq, object]
  rfl

end Admission
