import Admission.Proofs.Object.Registry
import Admission.Proofs.Object.Coherence

/-! Objects of a tree some numbers of which were re-read. They declare the same kind and have the same
labels and annotations, and the same types decode them, since what a type asks of a number does not
change when it is read again. -/

set_option autoImplicit false

namespace Admission

open Json (Tree)

namespace Json.Lifts

variable {R : Number → Number → Prop} {json other : Json}

theorem string?_eq (lifts : Lifts R json other) : other.string? = json.string? := by
  cases lifts <;> rfl

theorem isObject_eq (lifts : Lifts R json other) : other.isObject = json.isObject := by
  cases lifts <;> rfl

theorem member?_rel (lifts : Lifts R json other) (key : String) :
    Option.Rel (Lifts R) (json.member? key) (other.member? key) := by
  cases json with
  | object members =>
    obtain ⟨others, rfl, pairs⟩ := lifts.exists_members
    exact Entries.find?_rel_of_forall₂ pairs key
  | _ =>
    cases lifts
    exact .none

theorem text_eq (lifts : Lifts R json other) (key : String) :
    (other.member? key).bind Json.string? = (json.member? key).bind Json.string? := by
  have related := lifts.member?_rel key
  generalize json.member? key = value, other.member? key = value' at related
  cases related with
  | some related => exact related.string?_eq
  | none => rfl

theorem metadata?_rel (lifts : Lifts R json other) (field : String) :
    Option.Rel (Lifts R) (json.metadata? field) (other.metadata? field) := by
  have related := lifts.member?_rel "metadata"
  rw [metadata?, metadata?]
  generalize json.member? "metadata" = value, other.member? "metadata" = value' at related
  cases related with
  | some related => exact related.member?_rel field
  | none => exact .none

/-- There are no numbers in a map of strings. -/
theorem eq_ofStringMap {map : SortedMap String} (lifts : Lifts R (.ofStringMap map) other) :
    other = .ofStringMap map := by
  obtain ⟨others, rfl, pairs⟩ := lifts.exists_members
  have strings := (List.forall₂_map_left_iff.1 pairs).imp
    (S := fun entry member => (entry.1, Json.string entry.2) = member) fun entry member pair => by
      obtain ⟨key, value⟩ := member
      obtain ⟨rfl, value_lifts⟩ : entry.1 = key ∧ Lifts R (.string entry.2) value := pair
      cases value_lifts
      rfl
  rw [← List.forall₂_map_left_iff, List.forall₂_eq_eq_eq] at strings
  rw [← strings]
  rfl

theorem eq_ofStringMap_iff (lifts : Lifts R json other) {map : SortedMap String} :
    other = .ofStringMap map ↔ json = .ofStringMap map := by
  constructor
  · rintro rfl
    exact (lifts.symm (S := fun other value => R value other) fun _ _ related => related).eq_ofStringMap
  · rintro rfl
    exact lifts.eq_ofStringMap

end Json.Lifts

namespace Kubernetes

theorem isOk_map {ε α β : Type} (f : α → β) (result : Except ε α) :
    (result.map f).isOk = result.isOk := by
  cases result <;> rfl

theorem isOk_decodeItems_cons (schema : Schema) (item : Json) (items : List Json) :
    (decodeItems schema (item :: items)).isOk =
      ((decode schema item).isOk && (decodeItems schema items).isOk) := by
  rw [decodeItems]
  cases decode schema item with
  | error error => rfl
  | ok tree => exact isOk_map _ _

theorem isOk_decodeValues_cons (schema : Schema) (member : String × Json)
    (members : List (String × Json)) : (decodeValues schema (member :: members)).isOk =
      ((decode schema member.2).isOk && (decodeValues schema members).isOk) := by
  rw [decodeValues]
  cases decode schema member.2 with
  | error error => rfl
  | ok tree => exact isOk_map _ _

theorem isOk_decodeMembers_cons (fields : List Field) (member : String × Json)
    (members : List (String × Json)) : (decodeMembers fields (member :: members)).isOk =
      ((fields.lookup member.1).all (fun field =>
        field.2.skipsNull member.2 || (decode field.2 member.2).isOk) &&
        (decodeMembers fields members).isOk) := by
  rw [decodeMembers]
  cases fields.lookup member.1 with
  | none => simp
  | some field =>
    cases skips : field.2.skipsNull member.2 with
    | true => simp [skips]
    | false =>
      simp only [Bool.false_eq_true, if_false, Option.all_some, skips, Bool.false_or]
      cases decode field.2 member.2 with
      | error error => rfl
      | ok tree => exact isOk_map _ _

theorem skipsNull_of_rereads (schema : Schema) {json other : Json} (rereads : json.Rereads other) :
    schema.skipsNull other = schema.skipsNull json := by
  cases rereads <;> cases schema <;> rfl

theorem isOk_decodeScalar_of_rereads (schema : Schema) {value other : Json.Number}
    (rereads : value.Rereads other) : (decodeScalar schema (.number other)).isOk =
      (decodeScalar schema (.number value)).isOk := by
  rcases rereads with rfl | rfl
  · rfl
  · cases value with
    | integer value range => rfl
    | float x =>
      obtain ⟨y, eq⟩ := Json.Number.exists_reread_float x
      rw [eq]
      cases schema <;> rfl

theorem isOk_decodeItems_of_rereads {schema : Schema} {items others : List Json}
    (pairs : List.Forall₂ Json.Rereads items others)
    (isOk : ∀ item ∈ items, ∀ other, item.Rereads other →
      (decode schema other).isOk = (decode schema item).isOk) :
    (decodeItems schema others).isOk = (decodeItems schema items).isOk := by
  induction pairs with
  | nil => rfl
  | cons pair pairs ih =>
    rw [List.forall_mem_cons] at isOk
    rw [isOk_decodeItems_cons, isOk_decodeItems_cons, isOk.1 _ pair, ih isOk.2]

theorem isOk_decodeValues_of_rereads {schema : Schema} {members others : Entries Json}
    (pairs : List.Forall₂ (Json.MemberLifts Json.Number.Rereads) members others)
    (isOk : ∀ member ∈ members, ∀ other, member.2.Rereads other →
      (decode schema other).isOk = (decode schema member.2).isOk) :
    (decodeValues schema others).isOk = (decodeValues schema members).isOk := by
  induction pairs with
  | nil => rfl
  | cons pair pairs ih =>
    rw [List.forall_mem_cons] at isOk
    rw [isOk_decodeValues_cons, isOk_decodeValues_cons, isOk.1 _ pair.2, ih isOk.2]

theorem isOk_decodeMembers_of_rereads {fields : List Field} {members others : Entries Json}
    (pairs : List.Forall₂ (Json.MemberLifts Json.Number.Rereads) members others)
    (isOk : ∀ member ∈ members, ∀ schema other, member.2.Rereads other →
      (decode schema other).isOk = (decode schema member.2).isOk) :
    (decodeMembers fields others).isOk = (decodeMembers fields members).isOk := by
  induction pairs with
  | nil => rfl
  | @cons member other members others pair pairs ih =>
    rw [List.forall_mem_cons] at isOk
    rw [isOk_decodeMembers_cons, isOk_decodeMembers_cons, ← pair.1, ih isOk.2]
    simp only [skipsNull_of_rereads _ pair.2, isOk.1 _ _ pair.2]

/-- A type that decodes a value decodes it with numbers re-read as well, and no other does. -/
theorem isOk_decode_of_rereads {json other : Json} (rereads : json.Rereads other) (schema : Schema) :
    (decode schema other).isOk = (decode schema json).isOk := by
  induction json generalizing schema other with
  | null | bool | string =>
    cases rereads
    rfl
  | number value =>
    cases rereads with
    | number related => simpa [decode] using isOk_decodeScalar_of_rereads schema related
  | array items ih =>
    obtain ⟨others, rfl, pairs⟩ := rereads.exists_items
    cases schema with
    | list item =>
      rw [decode, decode, isOk_map, isOk_map]
      exact isOk_decodeItems_of_rereads pairs fun value mem other rereads =>
        ih value mem rereads item
    | _ => rfl
  | object members ih =>
    obtain ⟨others, rfl, pairs⟩ := rereads.exists_members
    cases schema with
    | map value =>
      rw [decode, decode, isOk_map, isOk_map]
      exact isOk_decodeValues_of_rereads pairs fun member mem other rereads =>
        ih member mem rereads value
    | record name fields =>
      rw [decode, decode, isOk_map, isOk_map]
      exact isOk_decodeMembers_of_rereads pairs
        fun member mem schema other rereads => ih member mem rereads schema
    | _ => rfl

end Kubernetes

theorem GroupVersionKind.ofObject?_of_rereads {json other : Json} (rereads : json.Rereads other) :
    ofObject? other = ofObject? json := by
  rw [ofObject?, ofObject?, rereads.text_eq, rereads.text_eq]

theorem Generic.stringMap?_of_rereads {tree other : Tree} (rereads : tree.json.Rereads other.json)
    (field : String) : stringMap? other field = stringMap? tree field := by
  refine Option.ext fun map => ?_
  rw [stringMap?_eq_some_iff, stringMap?_eq_some_iff]
  have related := rereads.metadata?_rel field
  generalize tree.json.metadata? field = value, other.json.metadata? field = value' at related
  cases related with
  | some related => rw [Option.some.injEq, Option.some.injEq, related.eq_ofStringMap_iff]
  | none => rfl

theorem Typed.isOk_decode_of_rereads {json other : Json} (rereads : json.Rereads other)
    (kind : Kubernetes.Kind) : (decode kind other).isOk = (decode kind json).isOk := by
  rw [decode, decode, Kubernetes.isOk_map, Kubernetes.isOk_map]
  exact Kubernetes.isOk_decode_of_rereads rereads kind.schema

theorem Creator.generic_of_rereads {registry : Registry} {tree other : Tree}
    (created : ((dynamic registry).ofTree tree).result = .ok (.generic (.ofTree tree)))
    (rereads : tree.json.Rereads other.json) :
    ((dynamic registry).ofTree other).result = .ok (.generic (.ofTree other)) := by
  have root : tree.json.isObject = true := by
    obtain ⟨_, _, -, typed⟩ | ⟨root, -⟩ := made_of_ofTree created
    · cases typed
    · exact root
  have generic : genericObject other = .ok (.generic (.ofTree other)) := by
    rw [genericObject, Generic.ofTree?, rereads.isObject_eq, if_pos root]
  rw [ofTree, GroupVersionKind.ofObject?_of_rereads rereads]
  rw [ofTree] at created
  generalize GroupVersionKind.ofObject? tree.json = name at created ⊢
  cases name with
  | none => exact generic
  | some name =>
    simp only at created ⊢
    generalize registry.find? name = registration at created ⊢
    cases registration with
    | none => exact generic
    | some registration =>
      cases registration with
      | partialMetadata => exact generic
      | type kind =>
        have isOk := Typed.isOk_decode_of_rereads rereads kind
        simp only at created ⊢
        -- a type that decoded the one tree would decode the other
        generalize Typed.decode kind tree.json = decoded at created isOk
        generalize Typed.decode kind other.json = decoded' at isOk ⊢
        cases decoded with
        | ok typed => cases created
        | error cause =>
          cases decoded' with
          | ok typed => cases isOk
          | error cause => exact generic

end Admission
