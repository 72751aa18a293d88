import Admission.Proofs.Json.Building
import Admission.Proofs.Json.Order

/-! Texts that say the same. Two outlines are the same if only the members of their objects stand in
another order, and the same to the reader of a record if moreover they differ in members that the
record does not know. -/

set_option autoImplicit false

namespace Admission.Json

namespace Outline

def names (members : List (Option String × Outline)) : List String :=
  members.filterMap Prod.fst

/-- Two outlines that are the same but for the order of members, at any depth. Members change places
in an object none of whose names repeats. -/
inductive Same : Outline → Outline → Prop where
  | refl (outline : Outline) : Same outline outline
  | symm {outline other : Outline} (same : Same outline other) : Same other outline
  | trans {first second third : Outline} (one : Same first second) (other : Same second third) :
    Same first third
  | item (before after : List Outline) {item other : Outline} (same : Same item other) :
    Same (.array (before ++ item :: after)) (.array (before ++ other :: after))
  | member (before after : List (Option String × Outline)) (name : Option String)
    {value other : Outline} (same : Same value other) :
    Same (.object (before ++ (name, value) :: after)) (.object (before ++ (name, other) :: after))
  | order {members others : List (Option String × Outline)} (distinct : (names members).Nodup)
    (perm : members.Perm others) : Same (.object members) (.object others)

/-- Two outlines that are the same to a reader of a shape: the same, or with other members that a
record does not know, in a record that is read or in a part of one. -/
inductive SameAs : Shape → Outline → Outline → Prop where
  | same (shape : Shape) {outline other : Outline} (same : Same outline other) :
    SameAs shape outline other
  | symm {shape : Shape} {outline other : Outline} (same : SameAs shape outline other) :
    SameAs shape other outline
  | trans {shape : Shape} {first second third : Outline} (one : SameAs shape first second)
    (other : SameAs shape second third) : SameAs shape first third
  | unknown (recordName : String) (form : RecordForm) {slots : List Slot}
    (before after : List (Option String × Outline)) {name : String}
    (unknown : slots.lookup name = none) (value : Outline) :
    SameAs (.record recordName form slots) (.object (before ++ after))
      (.object (before ++ (some name, value) :: after))
  | member (recordName : String) (form : RecordForm) {slots : List Slot}
    (before after : List (Option String × Outline)) {name : String} {presence : Presence}
    {shape : Shape} (known : slots.lookup name = some (presence, shape)) {value other : Outline}
    (same : SameAs shape value other) :
    SameAs (.record recordName form slots) (.object (before ++ (some name, value) :: after))
      (.object (before ++ (some name, other) :: after))
  | place (recordName : String) (form : RecordForm) {slots : List Slot} (before after : List Outline)
    {name : String} {presence : Presence} {shape : Shape}
    (known : slots[before.length]? = some (name, presence, shape)) {item other : Outline}
    (same : SameAs shape item other) :
    SameAs (.record recordName form slots) (.array (before ++ item :: after))
      (.array (before ++ other :: after))

def memberNode (member : Option String × Outline) : Key × Node :=
  (⟨orFault member.1, 0, 0⟩, member.2.node)

theorem itemNodes_append (items others : List Outline) :
    itemNodes (items ++ others) = itemNodes items ++ itemNodes others := by
  induction items with
  | nil => rfl
  | cons item items ih => rw [List.cons_append, itemNodes, itemNodes, ih, List.cons_append]

theorem length_itemNodes (items : List Outline) : (itemNodes items).length = items.length := by
  induction items with
  | nil => rfl
  | cons item items ih => rw [itemNodes, List.length_cons, List.length_cons, ih]

theorem memberNodes_eq (members : List (Option String × Outline)) :
    memberNodes members = members.map memberNode := by
  induction members with
  | nil => rfl
  | cons member members ih => rw [memberNodes, ih, List.map_cons, memberNode]

theorem node_array (before after : List Outline) (item : Outline) :
    (array (before ++ item :: after)).node =
      .array 0 0 (itemNodes before ++ item.node :: itemNodes after) (.closed 0) := by
  rw [node, itemNodes_append, itemNodes]

theorem node_object (before after : List (Option String × Outline)) (name : Option String)
    (value : Outline) : (object (before ++ (name, value) :: after)).node =
      .object 0 (memberNodes before ++ (⟨orFault name, 0, 0⟩, value.node) :: memberNodes after)
        (.closed 0) := by
  simp only [node, memberNodes_eq, List.map_append, List.map_cons, memberNode]

theorem names_memberNodes (members : List (Option String × Outline)) :
    Json.names (memberNodes members) = names members := by
  rw [memberNodes_eq, Json.names, List.filterMap_map, names]
  refine List.filterMap_congr fun member _ => ?_
  obtain ⟨name, value⟩ := member
  cases name <;> rfl

theorem skip_node (outline : Outline) : outline.node.skip = .ok () := by
  cases outline <;> rfl

theorem Same.alike {outline other : Outline} (same : Same outline other) :
    outline.node.Alike other.node := by
  induction same with
  | refl outline => exact .refl _
  | symm _ ih => exact ih.symm
  | trans _ _ first second => exact first.trans second
  | item before after _ ih =>
    rw [node_array, node_array]
    have same (nodes : List Node) : List.Forall₂ Node.Alike nodes nodes :=
      List.forall₂_same.2 fun node _ => .refl node
    exact .array (List.rel_append (same _) (.cons ih (same _))) (.closed 0 0) ..
  | @member before after name value other _ ih =>
    rw [node_object, node_object]
    have same (nodes : List (Key × Node)) : List.Forall₂ MembersAlike nodes nodes :=
      List.forall₂_same.2 fun node _ => ⟨.refl _, .refl _⟩
    have head : MembersAlike (⟨orFault name, 0, 0⟩, value.node) (⟨orFault name, 0, 0⟩, other.node) :=
      ⟨.refl _, ih⟩
    exact .object (List.rel_append (same _) (.cons head (same _))) (.closed 0 0) ..
  | @order members others distinct perm =>
    have nodes : (memberNodes members).Perm (memberNodes others) := by
      rw [memberNodes_eq, memberNodes_eq]
      exact perm.map _
    exact .reorder nodes (names_memberNodes members ▸ distinct) ..

/-- A reader of a shape makes the same of outlines that are the same to it. -/
theorem SameAs.alike {shape : Shape} {outline other : Outline} (same : SameAs shape outline other) :
    outline.node.AlikeAs shape other.node := by
  induction same with
  | same shape same => exact same.alike.as shape
  | symm _ ih => exact ih.symm
  | trans _ _ first second => exact first.trans second
  | unknown recordName form before after unknown value =>
    rw [node_object, node, memberNodes_eq, List.map_append, ← memberNodes_eq, ← memberNodes_eq]
    exact alikeAs_unknown recordName form rfl unknown value.skip_node ..
  | member recordName form before after known _ ih =>
    rw [node_object, node_object]
    exact alikeAs_member recordName form rfl known ih ..
  | place recordName form before after known _ ih =>
    rw [node_array, node_array]
    refine alikeAs_place recordName form _ _ (fun slot found => ?_) ..
    rw [length_itemNodes, known] at found
    cases found
    exact ih

end Outline

/-- A text of an outline is read as its node, in any layout and with any escapes. -/
theorem parseAs_spelled {outline : Outline} {bytes : List UInt8} (spelled : outline.SpelledBy bytes)
    (shape : Shape) : Agree (parseAs shape bytes) (outline.node.read shape nestingLimit) := by
  obtain ⟨node, alike, document_eq⟩ := document_spelled spelled
  have read := alike.read shape nestingLimit
  rw [parseAs, document_eq, Document.readWith]
  generalize node.read shape nestingLimit = result, outline.node.read shape nestingLimit = result'
    at read
  cases read <;> constructor

end Admission.Json
