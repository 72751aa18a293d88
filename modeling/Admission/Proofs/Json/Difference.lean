import Admission.Json.Patch.Application
import Admission.Proofs.Json.Pointer
import Admission.Proofs.Json.Structure
import Admission.Proofs.SortedMap

/-! The difference of two values, applied to the first one, makes the second one, and it is empty
exactly if the two are the same. -/

set_option autoImplicit false

namespace Admission.Json

theorem alter?_object {members : Entries Json} {key : String} {value : Json}
    (found : Entries.find? members key = some value) (change : Json → Option Json) :
    (Json.object members).alter? key change =
      (change value).map fun result => .object (Entries.insert members key result) := by
  rw [alter?, found]
  cases eq : change value <;> simp [eq]

theorem alter?_array {items : List Json} {index : Nat} {item : Json}
    (found : items[index]? = some item) (change : Json → Option Json) :
    (Json.array items).alter? (toString index) change =
      (change item).map fun result => .array (items.set index result) := by
  rw [alter?, Pointer.index?_toString]
  cases eq : change item <;> simp [found, eq]

namespace Patch

theorem run?_nil (json : Json) : run? [] json = some json :=
  rfl

theorem run?_cons (operation : Operation) (patch : Patch) (json : Json) :
    run? (operation :: patch) json = (operation.run? json).bind (run? patch) :=
  rfl

theorem run?_append (first second : Patch) (json : Json) :
    run? (first ++ second) json = (run? first json).bind (run? second) := by
  simp only [run?, List.foldlM_append, bind]
  rfl

theorem drop?_item (before : List Json) (item : Json) (after : List Json) :
    drop? (.array (before ++ item :: after)) (toString before.length) =
      some (.array (before ++ after)) := by
  rw [drop?, Pointer.index?_toString]
  simp [List.eraseIdx_append_of_length_le]

theorem put?_item (before : List Json) (value : Json) :
    put? (.array before) (toString before.length) value = some (.array (before ++ [value])) := by
  have notEnd : toString before.length ≠ "-" := fun eq => by
    have index := Pointer.index?_toString before.length
    rw [eq, show Pointer.index? "-" = none by decide] at index
    cases index
  rw [put?, if_neg notEnd, Pointer.index?_toString]
  simp

/-- An operation that puts nothing in the place of the whole value, unless it replaces it. -/
def Operation.Inner : Operation → Prop
  | .add path _ => path ≠ []
  | .remove path => path ≠ []
  | .replace _ _ => True

/-- An inner operation with a value of the given property, if it has one. -/
def Operation.Carries (P : Json → Prop) : Operation → Prop
  | .add path value => path ≠ [] ∧ P value
  | .remove path => path ≠ []
  | .replace _ value => P value

theorem Operation.Carries.inner {P : Json → Prop} {operation : Operation}
    (carries : operation.Carries P) : operation.Inner := by
  cases operation with
  | add path value => exact carries.1
  | remove path => exact carries
  | replace path value => trivial

theorem Operation.Carries.under {P : Json → Prop} {operation : Operation}
    (carries : operation.Carries P) (step : String) : (operation.under step).Carries P := by
  cases operation with
  | add path value => exact ⟨List.cons_ne_nil _ _, carries.2⟩
  | remove path => exact List.cons_ne_nil _ _
  | replace path value => exact carries

theorem Operation.run?_under {operation : Operation} (inner : operation.Inner) (step : String)
    (json : Json) : (operation.under step).run? json = json.alter? step operation.run? := by
  cases operation with
  | add path value =>
    cases path with
    | nil => exact absurd rfl inner
    | cons next path => rfl
  | remove path =>
    cases path with
    | nil => exact absurd rfl inner
    | cons next path => rfl
  | replace path value => rfl

theorem run?_under_object {patch : Patch} (inner : ∀ operation ∈ patch, operation.Inner)
    {members : Entries Json} (sorted : members.Sorted) {key : String} {value : Json}
    (found : Entries.find? members key = some value) :
    run? (under key patch) (.object members) =
      (run? patch value).map fun result => .object (Entries.insert members key result) := by
  induction patch generalizing members value with
  | nil => simp [under, run?_nil, sorted.insert_of_find? found]
  | cons operation patch ih =>
    rw [List.forall_mem_cons] at inner
    rw [under, List.map_cons, run?_cons, run?_cons, Operation.run?_under inner.1, alter?_object found]
    cases operation.run? value with
    | none => rfl
    | some result =>
      -- the member that was just written is the one that the next operation finds
      have next := ih inner.2 (sorted.insert key result)
        ((Entries.find?_insert members key key result).trans (if_pos rfl))
      simpa [under, Entries.insert_insert] using next

theorem run?_under_array {patch : Patch} (inner : ∀ operation ∈ patch, operation.Inner)
    {items : List Json} {index : Nat} {item : Json} (found : items[index]? = some item) :
    run? (under (toString index) patch) (.array items) =
      (run? patch item).map fun result => .array (items.set index result) := by
  induction patch generalizing items item with
  | nil =>
    obtain ⟨lt, rfl⟩ := List.getElem?_eq_some_iff.1 found
    simp [under, run?_nil]
  | cons operation patch ih =>
    rw [List.forall_mem_cons] at inner
    rw [under, List.map_cons, run?_cons, run?_cons, Operation.run?_under inner.1, alter?_array found]
    cases operation.run? item with
    | none => rfl
    | some result =>
      obtain ⟨lt, -⟩ := List.getElem?_eq_some_iff.1 found
      -- the item that was just set is the one that the next operation finds
      have next := ih inner.2 (List.getElem?_set_self lt (a := result))
      simpa [under] using next

end Patch

theorem diff_of_ne {old new : Json}
    (notObjects : ∀ newMembers oldMembers, new = .object newMembers → old = .object oldMembers → False)
    (notArrays : ∀ newItems oldItems, new = .array newItems → old = .array oldItems → False) :
    diff old new = if old.same new then [] else [.replace [] new] := by
  rw [diff]
  · exact notObjects
  · exact notArrays

def diffMember (old : List (String × Json)) (key : String) (value : Json) : Patch :=
  match Entries.find? old key with
  | some previous => Patch.under key (diff previous value)
  | none => [.add [key] value]

theorem diffMembers_cons (old new : List (String × Json)) (key : String) (value : Json) :
    diffMembers old ((key, value) :: new) = diffMember old key value ++ diffMembers old new := by
  cases found : Entries.find? old key <;> simp [diffMembers, diffMember, found]

theorem carries_diffMembers {P : Json → Prop} {old new : List (String × Json)}
    (values : ∀ member ∈ new, P member.2)
    (carries : ∀ member ∈ new, ∀ previous, ∀ operation ∈ diff previous member.2,
      operation.Carries P) :
    ∀ operation ∈ diffMembers old new, operation.Carries P := by
  intro operation mem
  induction new with
  | nil => simp [diffMembers] at mem
  | cons member new ih =>
    rw [List.forall_mem_cons] at values carries
    rw [diffMembers_cons, List.mem_append] at mem
    rcases mem with mem | mem
    · rw [diffMember] at mem
      split at mem
      · obtain ⟨operation, inner, rfl⟩ := List.mem_map.1 mem
        exact (carries.1 _ operation inner).under member.1
      · rw [List.mem_singleton.1 mem]
        exact ⟨List.cons_ne_nil _ _, values.1⟩
    · exact ih values.2 carries.2 mem

theorem carries_diffItems {P : Json → Prop} {index : Nat} {old new : List Json}
    (values : ∀ value ∈ new, P value)
    (carries : ∀ value ∈ new, ∀ previous, ∀ operation ∈ diff previous value,
      operation.Carries P) :
    ∀ operation ∈ diffItems index old new, operation.Carries P := by
  intro operation mem
  induction new generalizing index old with
  | nil =>
    rw [diffItems] at mem
    obtain ⟨-, -, rfl⟩ := List.mem_map.1 mem
    exact List.cons_ne_nil _ _
  | cons value new ih =>
    rw [List.forall_mem_cons] at values carries
    cases old with
    | nil =>
      rw [diffItems] at mem
      rcases List.mem_cons.1 mem with rfl | mem
      · exact ⟨List.cons_ne_nil _ _, values.1⟩
      · exact ih values.2 carries.2 mem
    | cons previous old =>
      rw [diffItems, List.mem_append] at mem
      rcases mem with mem | mem
      · obtain ⟨operation, inner, rfl⟩ := List.mem_map.1 mem
        exact (carries.1 _ operation inner).under _
      · exact ih values.2 carries.2 mem

theorem carries_diff_of_ne {P : Json → Prop} {old new : Json} (holds : P new)
    (notObjects : ∀ newMembers oldMembers, new = .object newMembers → old = .object oldMembers → False)
    (notArrays : ∀ newItems oldItems, new = .array newItems → old = .array oldItems → False) :
    ∀ operation ∈ diff old new, operation.Carries P := by
  intro operation mem
  rw [diff_of_ne notObjects notArrays] at mem
  split at mem
  · cases mem
  · rw [List.mem_singleton.1 mem]
    exact holds

/-- What the operations carry are parts of the new value. -/
theorem carries_diff {P : Json → Prop} (hereditary : Hereditary P) {old new : Json} (holds : P new) :
    ∀ operation ∈ diff old new, operation.Carries P := by
  -- the induction is on the new value, whose parts are carried; the old one only decides the case
  induction new generalizing old with
  | array newItems ih =>
    have values := hereditary.items holds
    cases old with
    | array oldItems =>
      rw [diff]
      exact carries_diffItems values fun value mem previous => ih value mem (values value mem)
    | _ => exact carries_diff_of_ne holds (by simp) (by simp)
  | object newMembers ih =>
    have values := hereditary.members holds
    cases old with
    | object oldMembers =>
      intro operation mem
      rw [diff, List.mem_append] at mem
      rcases mem with mem | mem
      · exact carries_diffMembers values
          (fun member mem previous => ih member mem (values member mem)) operation mem
      · obtain ⟨member, -, rfl⟩ := List.mem_map.1 mem
        exact List.cons_ne_nil _ _
    | _ => exact carries_diff_of_ne holds (by simp) (by simp)
  | _ => exact carries_diff_of_ne holds (by simp) (by simp)

theorem inner_diff (old new : Json) : ∀ operation ∈ diff old new, operation.Inner := by
  have hereditary : Hereditary fun _ => True := ⟨fun _ _ _ => trivial, fun _ _ _ => trivial⟩
  exact fun operation mem => (carries_diff hereditary trivial operation mem).inner

/-! ## Application -/

theorem run?_diff_of_ne {old new : Json}
    (notObjects : ∀ newMembers oldMembers, new = .object newMembers → old = .object oldMembers → False)
    (notArrays : ∀ newItems oldItems, new = .array newItems → old = .array oldItems → False) :
    ∃ result, Patch.run? (diff old new) old = some result ∧ result.same new = true := by
  rw [diff_of_ne notObjects notArrays]
  by_cases same : old.same new = true
  · exact ⟨old, by rw [if_pos same, Patch.run?_nil], same⟩
  · exact ⟨new, by rw [if_neg same]; rfl, same_refl new⟩

/-- The members that are new or differ, applied one after the other. The object that they are
applied to still has the old values under the new keys. -/
theorem run?_diffMembers {old new : List (String × Json)} (sorted : Entries.Sorted new)
    (values : ∀ member ∈ new, ∀ previous, Entries.find? old member.1 = some previous →
      ∃ result, Patch.run? (diff previous member.2) previous = some result ∧
        result.same member.2 = true)
    {members : Entries Json} (members_sorted : members.Sorted)
    (untouched : ∀ key ∈ Entries.keys new, Entries.find? members key = Entries.find? old key) :
    ∃ result : Entries Json, Patch.run? (diffMembers old new) (.object members) = some (.object result) ∧
      result.Sorted ∧
      (∀ member ∈ new, ∃ value, Entries.find? result member.1 = some value ∧
        value.same member.2 = true) ∧
      ∀ key, key ∉ Entries.keys new → Entries.find? result key = Entries.find? members key := by
  induction new generalizing members with
  | nil => exact ⟨members, rfl, members_sorted, by simp, fun _ _ => rfl⟩
  | cons member new ih =>
    obtain ⟨key, value⟩ := member
    rw [List.forall_mem_cons] at values
    -- either way the first member takes its place, and the others are as they were
    obtain ⟨first, step, same⟩ : ∃ first, Patch.run? (diffMember old key value) (.object members) =
        some (.object (Entries.insert members key first)) ∧ first.same value = true := by
      rw [diffMember]
      cases found : Entries.find? old key with
      | none => exact ⟨value, rfl, same_refl value⟩
      | some previous =>
        obtain ⟨first, ran, same⟩ := values.1 previous found
        have here := (untouched key (by simp [Entries.keys])).trans found
        refine ⟨first, ?_, same⟩
        rw [Patch.run?_under_object (inner_diff _ _) members_sorted here, ran]
        rfl
    obtain ⟨result, ran, result_sorted, news, others⟩ :=
      ih sorted.tail values.2 (members_sorted.insert key first) fun k mem => by
        have ne : k ≠ key := fun eq => sorted.not_mem (eq ▸ mem)
        rw [Entries.find?_insert, if_neg ne]
        exact untouched k (List.mem_cons_of_mem _ mem)
    refine ⟨result, ?_, result_sorted, ?_, fun k not_mem => ?_⟩
    · rw [diffMembers_cons, Patch.run?_append, step]
      exact ran
    · refine List.forall_mem_cons.2 ⟨⟨first, ?_, same⟩, news⟩
      rw [others key sorted.not_mem, Entries.find?_insert, if_pos rfl]
    · rw [Entries.keys, List.map_cons, List.mem_cons, not_or] at not_mem
      rw [others k not_mem.2, Entries.find?_insert, if_neg not_mem.1]

theorem run?_remove {removed : Entries Json} (removed_sorted : removed.Sorted)
    {members : Entries Json} (sorted : members.Sorted)
    (present : ∀ key ∈ removed.keys, Entries.contains members key = true) :
    ∃ result : Entries Json,
      Patch.run? (removed.map fun member => .remove [member.1]) (.object members) =
        some (.object result) ∧
      result.Sorted ∧
      ∀ key, Entries.find? result key =
        if key ∈ removed.keys then none else Entries.find? members key := by
  induction removed generalizing members with
  | nil => exact ⟨members, rfl, sorted, fun key => by simp [Entries.keys]⟩
  | cons member removed ih =>
    obtain ⟨key, value⟩ := member
    obtain ⟨result, ran, result_sorted, finds⟩ :=
      ih removed_sorted.tail (sorted.sublist (Entries.erase_sublist members key)) fun k mem => by
        have ne : k ≠ key := fun eq => removed_sorted.not_mem (eq ▸ mem)
        rw [Entries.contains, Entries.find?_erase sorted, if_neg ne]
        exact present k (List.mem_cons_of_mem _ mem)
    refine ⟨result, ?_, result_sorted, fun k => ?_⟩
    · have here := present key (by simp [Entries.keys])
      rw [List.map_cons, Patch.run?_cons]
      simpa [Patch.Operation.run?, Patch.remove?, Patch.drop?, here] using ran
    · rw [finds k, Entries.find?_erase sorted]
      by_cases eq : k = key <;> simp [eq]

/-- The items from an index on, the ones before it being done. -/
theorem run?_diffItems {new : List Json}
    (values : ∀ value ∈ new, ∀ previous, previous.Canonical →
      ∃ result, Patch.run? (diff previous value) previous = some result ∧ result.same value = true)
    {before old : List Json} (old_canonical : ∀ previous ∈ old, previous.Canonical) :
    ∃ result, Patch.run? (diffItems before.length old new) (.array (before ++ old)) =
        some (.array (before ++ result)) ∧ sameItems result new = true := by
  induction new generalizing before old with
  | nil =>
    refine ⟨[], ?_, rfl⟩
    -- the new items are used up: what is left of the old ones goes, always at the same index
    induction old with
    | nil => rfl
    | cons previous old ih =>
      have rest := ih (List.forall_mem_cons.1 old_canonical).2
      rw [diffItems] at rest ⊢
      rw [List.map_cons, Patch.run?_cons, Patch.Operation.run?, Patch.remove?, Patch.drop?_item]
      exact rest
  | cons value new ih =>
    rw [List.forall_mem_cons] at values
    cases old with
    | nil =>
      -- the old items are used up: the value is put at the end, behind what is done
      obtain ⟨result, ran, same⟩ := @ih values.2 (before ++ [value]) [] (by simp)
      refine ⟨value :: result, ?_, by simp [sameItems, same_refl, same]⟩
      rw [diffItems, Patch.run?_cons, Patch.Operation.run?, Patch.add?, List.append_nil,
        Patch.put?_item]
      simpa using ran
    | cons previous old =>
      rw [List.forall_mem_cons] at old_canonical
      obtain ⟨first, step, first_same⟩ := values.1 previous old_canonical.1
      obtain ⟨result, ran, same⟩ := @ih values.2 (before ++ [first]) old old_canonical.2
      refine ⟨first :: result, ?_, by simp [sameItems, first_same, same]⟩
      have here : (before ++ previous :: old)[before.length]? = some previous := by simp
      rw [diffItems, Patch.run?_append,
        Patch.run?_under_array (inner_diff _ _) here, step]
      simpa using ran

theorem sameMembers_iff_forall₂ {old new : List (String × Json)} :
    sameMembers old new = true ↔
      List.Forall₂ (fun member other => member.1 = other.1 ∧ member.2.same other.2 = true) old new := by
  induction old generalizing new with
  | nil => cases new <;> simp [sameMembers]
  | cons member old ih => cases new <;> simp [sameMembers, ih, and_assoc]

def lacking (old new : List (String × Json)) : Entries Json :=
  old.filter fun member => !Entries.contains new member.1

theorem mem_keys_lacking {old new : List (String × Json)} {key : String} :
    key ∈ (lacking old new).keys ↔ key ∈ Entries.keys old ∧ key ∉ Entries.keys new := by
  have lacks_iff : key ∉ Entries.keys new ↔ (!Entries.contains new key) = true := by
    rw [← Entries.contains_iff, Bool.not_eq_true, Bool.not_eq_true']
  rw [lacks_iff]
  constructor
  · intro mem
    obtain ⟨member, kept, rfl⟩ := List.mem_map.1 mem
    obtain ⟨inOld, lacks⟩ := List.mem_filter.1 kept
    exact ⟨Entries.mem_keys_of_mem inOld, lacks⟩
  · rintro ⟨mem, lacks⟩
    obtain ⟨member, inOld, rfl⟩ := List.mem_map.1 mem
    exact Entries.mem_keys_of_mem (List.mem_filter.2 ⟨inOld, lacks⟩)

/-- Once the new members are in place, the ones to be removed are all that is left of the old. -/
theorem run?_remove_lacking {old new members : Entries Json} (old_sorted : old.Sorted)
    (new_sorted : new.Sorted) (sorted : members.Sorted)
    (news : ∀ member ∈ new, ∃ value, Entries.find? members member.1 = some value ∧
      value.same member.2 = true)
    (others : ∀ key, key ∉ Entries.keys new → Entries.find? members key = Entries.find? old key) :
    ∃ result, Patch.run? ((lacking old new).map fun member => .remove [member.1])
        (.object members) = some (.object result) ∧ sameMembers result new = true := by
  have removed_sorted : (lacking old new).Sorted := old_sorted.sublist List.filter_sublist
  obtain ⟨result, ran, result_sorted, finds⟩ :=
    run?_remove removed_sorted sorted fun key mem => by
      obtain ⟨mem, lacks⟩ := mem_keys_lacking.1 mem
      rw [Entries.contains, others key lacks]
      exact Entries.find?_isSome_iff.2 mem
  refine ⟨result, ran, sameMembers_iff_forall₂.2 ?_⟩
  -- both lists are in key order, so that it is enough to look up every key
  refine Entries.forall₂_of_find? (R := fun value other => value.same other = true)
    result_sorted new_sorted fun key => ?_
  rw [finds key]
  cases found : Entries.find? new key with
  | some value =>
    have mem := Entries.mem_of_find? found
    obtain ⟨previous, here, same⟩ := news _ mem
    rw [if_neg fun lacks => (mem_keys_lacking.1 lacks).2 (Entries.mem_keys_of_mem mem), here]
    exact .some same
  | none =>
    have lacks : key ∉ Entries.keys new := fun mem => by
      simpa [found] using Entries.find?_isSome_iff.2 mem
    split
    · exact .none
    · rename_i kept
      have absent : key ∉ Entries.keys old := fun mem => kept (mem_keys_lacking.2 ⟨mem, lacks⟩)
      rw [others key lacks, Entries.find?_eq_none_of_not_mem absent]
      exact .none

/-- The difference can be applied to the old value, operation by operation, and makes the new one. -/
theorem run?_diff {old new : Json} (old_canonical : old.Canonical) (new_canonical : new.Canonical) :
    ∃ result, Patch.run? (diff old new) old = some result ∧ result.same new = true := by
  induction new generalizing old with
  | array newItems ih =>
    cases old with
    | array oldItems =>
      have values (value) (mem : value ∈ newItems) (previous) (canonical : Canonical previous) :=
        ih value mem canonical (new_canonical.of_mem_items value mem)
      obtain ⟨result, ran, same⟩ := @run?_diffItems newItems values [] oldItems
        old_canonical.of_mem_items
      exact ⟨.array result, by simpa [diff] using ran, same⟩
    | _ => exact run?_diff_of_ne (by simp) (by simp)
  | object newMembers ih =>
    cases old with
    | object oldMembers =>
      -- the new members take their places first, and only then the ones that are lacking go
      obtain ⟨met, ran, met_sorted, news, others⟩ := run?_diffMembers new_canonical.members_sorted
        (fun member mem previous found => ih member mem
          (old_canonical.of_mem_members _ (Entries.mem_of_find? found))
          (new_canonical.of_mem_members member mem))
        old_canonical.members_sorted (fun _ _ => rfl)
      obtain ⟨result, removed, same⟩ := run?_remove_lacking old_canonical.members_sorted
        new_canonical.members_sorted met_sorted news others
      refine ⟨.object result, ?_, same⟩
      rw [diff, Patch.run?_append, ran]
      exact removed
    | _ => exact run?_diff_of_ne (by simp) (by simp)
  | _ => exact run?_diff_of_ne (by simp) (by simp)

theorem diffMembers_eq_nil {old new : List (String × Json)}
    (values : ∀ member ∈ new, ∃ previous, Entries.find? old member.1 = some previous ∧
      diff previous member.2 = []) : diffMembers old new = [] := by
  induction new with
  | nil => rfl
  | cons member new ih =>
    rw [List.forall_mem_cons] at values
    obtain ⟨⟨previous, found, same⟩, values⟩ := values
    rw [diffMembers_cons, diffMember, found, ih values]
    simp [same, Patch.under]

theorem diffItems_eq_nil {index : Nat} {old new : List Json} (same : sameItems old new = true)
    (values : ∀ value ∈ new, ∀ previous, previous ∈ old → previous.same value = true →
      diff previous value = []) : diffItems index old new = [] := by
  induction new generalizing index old with
  | nil => cases old <;> simp_all [sameItems, diffItems]
  | cons value new ih =>
    cases old with
    | nil => simp [sameItems] at same
    | cons previous old =>
      simp only [sameItems, Bool.and_eq_true] at same
      rw [List.forall_mem_cons] at values
      have rest := @ih (index + 1) old same.2 fun value mem previous' mem' =>
        values.2 value mem previous' (List.mem_cons_of_mem _ mem')
      rw [diffItems, rest, values.1 previous List.mem_cons_self same.1]
      rfl

theorem lacking_eq_nil {old new : Entries Json} (eq : old.keys = new.keys) : lacking old new = [] := by
  refine List.filter_eq_nil_iff.2 fun member mem => ?_
  have present : member.1 ∈ new.keys := eq ▸ Entries.mem_keys_of_mem mem
  simp [Entries.contains_iff.2 present]

theorem diff_eq_nil_of_same {old new : Json} (old_canonical : old.Canonical)
    (new_canonical : new.Canonical) (same : old.same new = true) : diff old new = [] := by
  induction new generalizing old with
  | array newItems ih =>
    cases old with
    | array oldItems =>
      rw [diff]
      exact diffItems_eq_nil same fun value mem previous mem' same =>
        ih value mem (old_canonical.of_mem_items previous mem') (new_canonical.of_mem_items value mem)
          same
    | _ => simp [Json.same] at same
  | object newMembers ih =>
    cases old with
    | object oldMembers =>
      -- the same members stand under the same keys, so that nothing is lacking either
      have pairs := sameMembers_iff_forall₂.1 same
      have values : diffMembers oldMembers newMembers = [] := diffMembers_eq_nil fun member mem => by
        have related := Entries.find?_rel_of_forall₂
          (R := fun value other : Json => value.same other = true) pairs member.1
        rw [new_canonical.members_sorted.find?_of_mem mem] at related
        generalize found : Entries.find? oldMembers member.1 = found? at related
        cases related with
        | @some previous _ same =>
          exact ⟨previous, rfl, ih member mem
            (old_canonical.of_mem_members _ (Entries.mem_of_find? found))
            (new_canonical.of_mem_members member mem) same⟩
      rw [diff, values, ← lacking, lacking_eq_nil (Entries.keys_eq_of_forall₂
        (R := fun value other : Json => value.same other = true) pairs)]
      rfl
    | _ => simp [Json.same] at same
  | _ =>
    rw [diff_of_ne (by simp) (by simp), if_pos same]

theorem diff_eq_nil_iff {old new : Json} (old_canonical : old.Canonical)
    (new_canonical : new.Canonical) : diff old new = [] ↔ old.same new = true := by
  refine ⟨fun empty => ?_, diff_eq_nil_of_same old_canonical new_canonical⟩
  -- an empty patch leaves the old value, and the difference makes the new one
  obtain ⟨result, ran, same⟩ := run?_diff old_canonical new_canonical
  rw [empty, Patch.run?_nil] at ran
  cases ran
  exact same

end Admission.Json
