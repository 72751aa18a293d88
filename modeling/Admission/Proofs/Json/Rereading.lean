import Mathlib.Data.List.Forall2
import Admission.Proofs.Json.PrintedNumber
import Admission.Proofs.Json.Structure
import Admission.Proofs.SortedMap

/-! Values whose numbers are replaced by what their texts are read as, binary64 numbers by the estimate
of their shortest digits. Nothing else of a value is lost in its text, so that a value of integers
reads back. -/

set_option autoImplicit false

namespace Admission.Json

mutual

/-- The value with every number as its text is read. -/
def reread : Json → Json
  | .null => .null
  | .bool value => .bool value
  | .number value => .number value.reread
  | .string value => .string value
  | .array items => .array (rereadItems items)
  | .object members => .object (rereadMembers members)

def rereadItems : List Json → List Json
  | [] => []
  | item :: items => reread item :: rereadItems items

def rereadMembers : List (String × Json) → List (String × Json)
  | [] => []
  | (key, value) :: members => (key, reread value) :: rereadMembers members

end

theorem rereadItems_eq (items : List Json) : rereadItems items = items.map reread := by
  induction items with
  | nil => rfl
  | cons item items ih => rw [rereadItems, ih, List.map_cons]

theorem rereadMembers_eq (members : List (String × Json)) :
    rereadMembers members = Entries.mapValues reread members := by
  induction members with
  | nil => rfl
  | cons member members ih =>
    rw [rereadMembers, ih]
    rfl

theorem reread_array (items : List Json) : (Json.array items).reread = .array (items.map reread) := by
  rw [reread, rereadItems_eq]

theorem reread_object (members : Entries Json) :
    (Json.object members).reread = .object (members.mapValues reread) := by
  rw [reread, rereadMembers_eq]

theorem depth_reread_le_iff (json : Json) (room : Nat) :
    json.reread.depth ≤ room ↔ json.depth ≤ room := by
  induction json generalizing room with
  | null | bool | number | string => simp [reread, depth]
  | array items ih =>
    rw [reread_array]
    cases room with
    | zero => simp [depth]
    | succ room =>
      rw [depth_array_le_iff, depth_array_le_iff, List.forall_mem_map]
      exact forall₂_congr fun item mem => ih item mem room
  | object members ih =>
    rw [reread_object]
    cases room with
    | zero => simp [depth]
    | succ room =>
      rw [depth_object_le_iff, depth_object_le_iff, Entries.mapValues, List.forall_mem_map]
      exact forall₂_congr fun member mem => ih member mem room

theorem Canonical.reread {json : Json} (canonical : json.Canonical) : json.reread.Canonical := by
  induction json with
  | null => exact .null
  | bool value => exact .bool value
  | number value => exact .number value.reread
  | string value => exact .string value
  | array items ih =>
    rw [reread_array]
    refine .array (List.forall_mem_map.2 fun item mem => ?_)
    exact ih item mem (canonical.of_mem_items item mem)
  | object members ih =>
    rw [reread_object]
    refine .object ?_ (List.forall_mem_map.2 fun member mem => ?_)
    · rw [Entries.Sorted, Entries.keys_mapValues]
      exact canonical.members_sorted
    · exact ih member mem (canonical.of_mem_members member mem)

def Tree.reread (tree : Tree) : Tree :=
  ⟨tree.json.reread, tree.canonical.reread⟩

def ReadsBack (json : Json) : Prop :=
  json.reread = json

theorem readsBack_array_iff {items : List Json} :
    (Json.array items).ReadsBack ↔ ∀ item ∈ items, item.ReadsBack := by
  rw [ReadsBack, reread_array, Json.array.injEq]
  simpa [ReadsBack] using List.map_inj_left (l := items) (f := reread) (g := id)

theorem readsBack_object_iff {members : Entries Json} :
    (Json.object members).ReadsBack ↔ ∀ member ∈ members, member.2.ReadsBack := by
  rw [ReadsBack, reread_object, Json.object.injEq, Entries.mapValues]
  have pairs := List.map_inj_left (l := members) (f := fun member => (member.1, member.2.reread))
    (g := id)
  rw [List.map_id] at pairs
  refine pairs.trans (forall₂_congr fun member _ => ?_)
  simp [Prod.ext_iff, ReadsBack]

theorem ReadsBack.hereditary : Hereditary ReadsBack :=
  ⟨readsBack_array_iff.1, readsBack_object_iff.1⟩

theorem Integral.readsBack {json : Json} (integral : json.Integral) : json.ReadsBack := by
  induction json with
  | null | bool | string => rfl
  | number value =>
    cases integral
    rfl
  | array items ih =>
    cases integral with
    | array integral => exact readsBack_array_iff.2 fun item mem => ih item mem (integral item mem)
  | object members ih =>
    cases integral with
    | object integral =>
      exact readsBack_object_iff.2 fun member mem => ih member mem (integral member mem)

/-- The two values are one but for their numbers, which are related. -/
inductive Lifts (R : Number → Number → Prop) : Json → Json → Prop where
  | null : Lifts R .null .null
  | bool (value : Bool) : Lifts R (.bool value) (.bool value)
  | number {value other : Number} (related : R value other) : Lifts R (.number value) (.number other)
  | string (value : String) : Lifts R (.string value) (.string value)
  | array {items others : List Json} (pairs : List.Forall₂ (Lifts R) items others) :
    Lifts R (.array items) (.array others)
  | object {members others : Entries Json} (keys_eq : members.keys = others.keys)
    (pairs : List.Forall₂ (Lifts R) (members.map Prod.snd) (others.map Prod.snd)) :
    Lifts R (.object members) (.object others)

def MemberLifts (R : Number → Number → Prop) (member other : String × Json) : Prop :=
  member.1 = other.1 ∧ Lifts R member.2 other.2

theorem forall₂_of_mem {α β : Type} {R S : α → β → Prop} {items : List α} {others : List β}
    (pairs : List.Forall₂ R items others) (implies : ∀ item ∈ items, ∀ other, R item other →
      S item other) : List.Forall₂ S items others := by
  induction pairs with
  | nil => exact .nil
  | cons pair pairs ih =>
    rw [List.forall_mem_cons] at implies
    exact .cons (implies.1 _ pair) (ih implies.2)

namespace Lifts

variable {R : Number → Number → Prop}

theorem forall₂_memberLifts_iff {members others : Entries Json} :
    List.Forall₂ (MemberLifts R) members others ↔ members.keys = others.keys ∧
      List.Forall₂ (Lifts R) (members.map Prod.snd) (others.map Prod.snd) := by
  rw [← List.forall₂_eq_eq_eq, Entries.keys, Entries.keys, List.forall₂_map_left_iff,
    List.forall₂_map_left_iff, List.forall₂_map_right_iff, List.forall₂_map_right_iff]
  constructor
  · intro pairs
    exact ⟨pairs.imp fun _ _ pair => pair.1, pairs.imp fun _ _ pair => pair.2⟩
  · rintro ⟨keys_eq, values⟩
    exact values.mp (fun _ _ value key => ⟨key, value⟩) keys_eq

theorem exists_items {items : List Json} {json : Json} (lifts : Lifts R (.array items) json) :
    ∃ others, json = .array others ∧ List.Forall₂ (Lifts R) items others := by
  cases lifts with
  | array pairs => exact ⟨_, rfl, pairs⟩

theorem exists_members {members : Entries Json} {json : Json} (lifts : Lifts R (.object members) json) :
    ∃ others, json = .object others ∧ List.Forall₂ (MemberLifts R) members others := by
  cases lifts with
  | object keys_eq pairs => exact ⟨_, rfl, forall₂_memberLifts_iff.2 ⟨keys_eq, pairs⟩⟩

theorem of_members {members others : Entries Json}
    (pairs : List.Forall₂ (MemberLifts R) members others) :
    Lifts R (.object members) (.object others) :=
  have parts := forall₂_memberLifts_iff.1 pairs
  .object parts.1 parts.2

theorem refl (reflexive : ∀ value, R value value) (json : Json) : Lifts R json json := by
  induction json with
  | null => exact .null
  | bool value => exact .bool value
  | number value => exact .number (reflexive value)
  | string value => exact .string value
  | array items ih => exact .array (List.forall₂_same.2 ih)
  | object members ih =>
    exact .of_members (List.forall₂_same.2 fun member mem => ⟨rfl, ih member mem⟩)

theorem symm {S : Number → Number → Prop} (back : ∀ value other, R value other → S other value)
    {json other : Json} (lifts : Lifts R json other) : Lifts S other json := by
  induction json generalizing other with
  | null =>
    cases lifts
    exact .null
  | bool value =>
    cases lifts
    exact .bool value
  | number value =>
    cases lifts with
    | number related => exact .number (back _ _ related)
  | string value =>
    cases lifts
    exact .string value
  | array items ih =>
    obtain ⟨others, rfl, pairs⟩ := lifts.exists_items
    exact .array (forall₂_of_mem pairs fun item mem other lifts => ih item mem lifts).flip
  | object members ih =>
    obtain ⟨others, rfl, pairs⟩ := lifts.exists_members
    exact .of_members (forall₂_of_mem pairs fun member mem other lifts =>
      ⟨lifts.1.symm, ih member mem lifts.2⟩).flip

end Lifts

/-- The other number is this one, or this one as its text is read. -/
def Number.Rereads (number other : Number) : Prop :=
  other = number ∨ other = number.reread

abbrev Rereads : Json → Json → Prop :=
  Lifts Number.Rereads

theorem rereads_self (json : Json) : json.Rereads json :=
  .refl (fun _ => .inl rfl) json

theorem rereads_reread (json : Json) : json.Rereads json.reread := by
  induction json with
  | null => exact .null
  | bool value => exact .bool value
  | number value => exact .number (.inr rfl)
  | string value => exact .string value
  | array items ih =>
    rw [reread_array]
    refine .array ?_
    rw [List.forall₂_map_right_iff, List.forall₂_same]
    exact ih
  | object members ih =>
    rw [reread_object]
    refine .of_members ?_
    rw [Entries.mapValues, List.forall₂_map_right_iff, List.forall₂_same]
    exact fun member mem => ⟨rfl, ih member mem⟩

end Admission.Json
