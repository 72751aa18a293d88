import Admission.Json.Tree

/-! Induction over JSON values, how deep they nest, and when two of them are the same. Values
without binary64 numbers are the same only if they are equal, and the canonical form of a canonical
value is the value itself. -/

set_option autoImplicit false

namespace Admission

namespace Json

@[induction_eliminator]
protected theorem induction {motive : Json → Prop}
    (null : motive .null) (bool : ∀ value, motive (.bool value))
    (number : ∀ value, motive (.number value)) (string : ∀ value, motive (.string value))
    (array : ∀ items, (∀ item ∈ items, motive item) → motive (.array items))
    (object : ∀ members, (∀ member ∈ members, motive member.2) → motive (.object members))
    (json : Json) : motive json :=
  Json.rec (motive_1 := motive) (motive_2 := fun items => ∀ item ∈ items, motive item)
    (motive_3 := fun members => ∀ member ∈ members, motive member.2)
    (motive_4 := fun member => motive member.2)
    null bool number string array object
    (by simp) (fun _ _ head tail => List.forall_mem_cons.2 ⟨head, tail⟩)
    (by simp) (fun _ _ head tail => List.forall_mem_cons.2 ⟨head, tail⟩)
    (fun _ _ value => value) json

/-- A property that passes from a value to its items and to the values of its members. -/
structure Hereditary (P : Json → Prop) : Prop where
  items : ∀ {items : List Json}, P (.array items) → ∀ item ∈ items, P item
  members : ∀ {members : List (String × Json)}, P (.object members) → ∀ member ∈ members, P member.2

theorem Canonical.hereditary : Hereditary Canonical :=
  ⟨Canonical.of_mem_items, Canonical.of_mem_members⟩

mutual

/-- How many brackets are open at once where they are most. -/
def depth : Json → Nat
  | .array items => depthItems items + 1
  | .object members => depthMembers members + 1
  | _ => 0

def depthItems : List Json → Nat
  | [] => 0
  | item :: items => max item.depth (depthItems items)

def depthMembers : List (String × Json) → Nat
  | [] => 0
  | (_, value) :: members => max value.depth (depthMembers members)

end

theorem depthItems_le_iff {items : List Json} {room : Nat} :
    depthItems items ≤ room ↔ ∀ item ∈ items, item.depth ≤ room := by
  induction items with
  | nil => simp [depthItems]
  | cons item items ih => rw [depthItems, Nat.max_le, ih, List.forall_mem_cons]

theorem depthMembers_le_iff {members : List (String × Json)} {room : Nat} :
    depthMembers members ≤ room ↔ ∀ member ∈ members, member.2.depth ≤ room := by
  induction members with
  | nil => simp [depthMembers]
  | cons member members ih => rw [depthMembers, Nat.max_le, ih, List.forall_mem_cons]

theorem depth_array_le_iff {items : List Json} {room : Nat} :
    (Json.array items).depth ≤ room + 1 ↔ ∀ item ∈ items, item.depth ≤ room := by
  rw [depth, Nat.add_le_add_iff_right, depthItems_le_iff]

theorem depth_object_le_iff {members : List (String × Json)} {room : Nat} :
    (Json.object members).depth ≤ room + 1 ↔ ∀ member ∈ members, member.2.depth ≤ room := by
  rw [depth, Nat.add_le_add_iff_right, depthMembers_le_iff]

theorem hereditary_depth (room : Nat) : Hereditary fun json => json.depth ≤ room where
  items fits := depth_array_le_iff.1 (Nat.le_succ_of_le fits)
  members fits := depth_object_le_iff.1 (Nat.le_succ_of_le fits)

theorem Number.same_refl (value : Number) : value.same value = true := by
  cases value <;> simp [Number.same, Binary64.same]

theorem sameItems_refl {items : List Json} (same : ∀ item ∈ items, item.same item = true) :
    sameItems items items = true := by
  induction items with
  | nil => rfl
  | cons item items ih =>
    rw [List.forall_mem_cons] at same
    simp [sameItems, same.1, ih same.2]

theorem sameMembers_refl {members : List (String × Json)}
    (same : ∀ member ∈ members, member.2.same member.2 = true) :
    sameMembers members members = true := by
  induction members with
  | nil => rfl
  | cons member members ih =>
    rw [List.forall_mem_cons] at same
    simp [sameMembers, same.1, ih same.2]

theorem same_refl (json : Json) : json.same json = true := by
  induction json with
  | null => rfl
  | bool value => simp [same]
  | number value => exact Number.same_refl value
  | string value => simp [same]
  | array items ih => exact sameItems_refl ih
  | object members ih => exact sameMembers_refl ih

theorem Number.same_trans {first second third : Number} (one : first.same second = true)
    (other : second.same third = true) : first.same third = true := by
  cases first <;> cases second <;> cases third <;> simp_all [Number.same, Binary64.same]
  -- floats are left, of which zeros are the same whatever their sign
  grind

theorem sameItems_trans {first second third : List Json} (one : sameItems first second = true)
    (other : sameItems second third = true)
    (trans : ∀ item ∈ second, ∀ before after : Json, before.same item = true →
      item.same after = true → before.same after = true) : sameItems first third = true := by
  induction second generalizing first third with
  | nil => cases first <;> cases third <;> simp_all [sameItems]
  | cons item second ih =>
    cases first with
    | nil => simp [sameItems] at one
    | cons before first =>
      cases third with
      | nil => simp [sameItems] at other
      | cons after third =>
        rw [List.forall_mem_cons] at trans
        simp only [sameItems, Bool.and_eq_true] at one other ⊢
        exact ⟨trans.1 before after one.1 other.1, ih one.2 other.2 trans.2⟩

theorem sameMembers_trans {first second third : List (String × Json)}
    (one : sameMembers first second = true) (other : sameMembers second third = true)
    (trans : ∀ member ∈ second, ∀ before after : Json, before.same member.2 = true →
      member.2.same after = true → before.same after = true) : sameMembers first third = true := by
  induction second generalizing first third with
  | nil => cases first <;> cases third <;> simp_all [sameMembers]
  | cons member second ih =>
    cases first with
    | nil => simp [sameMembers] at one
    | cons before first =>
      cases third with
      | nil => simp [sameMembers] at other
      | cons after third =>
        rw [List.forall_mem_cons] at trans
        simp only [sameMembers, Bool.and_eq_true, beq_iff_eq] at one other ⊢
        exact ⟨⟨one.1.1.trans other.1.1, trans.1 before.2 after.2 one.1.2 other.1.2⟩,
          ih one.2 other.2 trans.2⟩

theorem same_trans {first second third : Json} (one : first.same second = true)
    (other : second.same third = true) : first.same third = true := by
  induction second generalizing first third with
  | array items ih =>
    cases first <;> cases third <;> simp only [Json.same, Bool.false_eq_true] at one other ⊢
    exact sameItems_trans one other fun item mem before after => ih item mem
  | object members ih =>
    cases first <;> cases third <;> simp only [Json.same, Bool.false_eq_true] at one other ⊢
    exact sameMembers_trans one other fun member mem before after => ih member mem
  | number value =>
    cases first <;> cases third <;> simp only [Json.same, Bool.false_eq_true] at one other ⊢
    exact Number.same_trans one other
  | null | bool value | string value =>
    cases first <;> cases third <;> simp_all [Json.same]

inductive Integral : Json → Prop where
  | null : Integral .null
  | bool (value : Bool) : Integral (.bool value)
  | integer (value : Int) (range : IsInteger value) : Integral (.number (.integer value range))
  | string (value : String) : Integral (.string value)
  | array {items : List Json} (integral : ∀ item ∈ items, Integral item) : Integral (.array items)
  | object {members : List (String × Json)} (integral : ∀ member ∈ members, Integral member.2) :
    Integral (.object members)

theorem eq_of_sameItems {old new : List Json} (same : sameItems old new = true)
    (eq : ∀ value ∈ new, ∀ other : Json, other.same value = true → other = value) : old = new := by
  induction new generalizing old with
  | nil =>
    cases old with
    | nil => rfl
    | cons value old => simp [sameItems] at same
  | cons value new ih =>
    cases old with
    | nil => simp [sameItems] at same
    | cons other old =>
      rw [List.forall_mem_cons] at eq
      simp only [sameItems, Bool.and_eq_true] at same
      rw [eq.1 other same.1, ih same.2 eq.2]

theorem eq_of_sameMembers {old new : List (String × Json)} (same : sameMembers old new = true)
    (eq : ∀ member ∈ new, ∀ other : Json, other.same member.2 = true → other = member.2) :
    old = new := by
  induction new generalizing old with
  | nil =>
    cases old with
    | nil => rfl
    | cons member old => simp [sameMembers] at same
  | cons member new ih =>
    cases old with
    | nil => simp [sameMembers] at same
    | cons other old =>
      rw [List.forall_mem_cons] at eq
      simp only [sameMembers, Bool.and_eq_true, beq_iff_eq] at same
      obtain ⟨⟨keys, values⟩, rest⟩ := same
      rw [ih rest eq.2, Prod.ext keys (eq.1 other.2 values)]

/-- Only binary64 numbers can be the same without being equal. -/
theorem Integral.eq_of_same {json other : Json} (integral : Integral json)
    (same : other.same json = true) : other = json := by
  induction json generalizing other with
  | null => cases other <;> simp_all [Json.same]
  | bool value => cases other <;> simp_all [Json.same]
  | number value =>
    cases integral with
    | integer value range =>
      cases other with
      | number other => cases other <;> simp_all [Json.same, Number.same]
      | _ => simp [Json.same] at same
  | string value => cases other <;> simp_all [Json.same]
  | array items ih =>
    cases integral with
    | array integral =>
      cases other with
      | array others =>
        rw [eq_of_sameItems same fun item mem other same => ih item mem (integral item mem) same]
      | _ => simp [Json.same] at same
  | object members ih =>
    cases integral with
    | object integral =>
      cases other with
      | object others =>
        rw [eq_of_sameMembers same fun member mem other same =>
          ih member mem (integral member mem) same]
      | _ => simp [Json.same] at same

end Json

end Admission
