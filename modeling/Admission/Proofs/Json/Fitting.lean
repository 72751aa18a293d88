import Admission.Proofs.Json.Difference

/-! The difference of two values, applied to a third one. It runs member by member and item by item,
and it runs through if the third value has what the difference reaches into. -/

set_option autoImplicit false

namespace Admission.Json

namespace Patch

/-- Where there is no value of a member, nothing can be changed in it. -/
theorem run?_under_absent {patch : Patch} (inner : ∀ operation ∈ patch, operation.Inner)
    {members : Entries Json} {key : String} (absent : Entries.find? members key = none)
    {result : Json} (ran : run? (under key patch) (.object members) = some result) :
    patch = [] ∧ result = .object members := by
  cases patch with
  | nil => exact ⟨rfl, (Option.some.inj ran).symm⟩
  | cons operation patch =>
    rw [under, List.map_cons, run?_cons, Operation.run?_under (inner _ List.mem_cons_self)] at ran
    simp [alter?, absent] at ran

end Patch

/-- What becomes of a member, or of its place, when the difference of two objects is applied to a
third one: there it is `received`, in the two objects `old` and `new`, and in the end `result`. -/
inductive MemberMet : (received old new result : Option Json) → Prop where
  | untouched (received : Option Json) : MemberMet received none none received
  | added (received : Option Json) (new : Json) : MemberMet received none (some new) (some new)
  | removed (received old : Json) : MemberMet (some received) (some old) none none
  | kept (received : Option Json) {old new : Json} (empty : diff old new = []) :
    MemberMet received (some old) (some new) received
  | changed {received old new result : Json}
    (ran : Patch.run? (diff old new) received = some result) :
    MemberMet (some received) (some old) (some new) (some result)

theorem run?_diffMember {old : List (String × Json)} {key : String} {value : Json}
    {members : Entries Json} (sorted : members.Sorted) {result : Json}
    (ran : Patch.run? (diffMember old key value) (.object members) = some result) :
    ∃ met : Entries Json, result = .object met ∧ met.Sorted ∧
      (∀ k, k ≠ key → Entries.find? met k = Entries.find? members k) ∧
      MemberMet (Entries.find? members key) (Entries.find? old key) (some value)
        (Entries.find? met key) := by
  rw [diffMember] at ran
  have others (value : Json) (k : String) (ne : k ≠ key) :
      Entries.find? (Entries.insert members key value) k = Entries.find? members k := by
    rw [Entries.find?_insert, if_neg ne]
  have here (value : Json) : Entries.find? (Entries.insert members key value) key = some value := by
    rw [Entries.find?_insert, if_pos rfl]
  cases found : Entries.find? old key with
  | none =>
    rw [found] at ran
    cases ran
    exact ⟨_, rfl, sorted.insert key value, others value, by rw [here value]; exact .added _ value⟩
  | some previous =>
    rw [found] at ran
    cases present : Entries.find? members key with
    | none =>
      obtain ⟨empty, rfl⟩ := Patch.run?_under_absent (inner_diff _ _) present ran
      exact ⟨members, rfl, sorted, fun _ _ => rfl, present ▸ .kept none empty⟩
    | some received =>
      rw [Patch.run?_under_object (inner_diff _ _) sorted present] at ran
      obtain ⟨changed, inside, rfl⟩ := Option.map_eq_some_iff.1 ran
      refine ⟨_, rfl, sorted.insert key changed, others changed, ?_⟩
      rw [here changed]
      exact .changed inside

theorem exists_run?_diffMember {old : List (String × Json)} {key : String} {value : Json}
    {members : Entries Json} (sorted : members.Sorted) {met : Option Json}
    (possible : MemberMet (Entries.find? members key) (Entries.find? old key) (some value) met) :
    ∃ result, Patch.run? (diffMember old key value) (.object members) = some result := by
  rw [diffMember]
  generalize received_eq : Entries.find? members key = received at possible
  generalize old_eq : Entries.find? old key = previous at possible
  cases possible with
  | added received value => exact ⟨_, rfl⟩
  | kept received empty => exact ⟨.object members, by simp [empty, Patch.under, Patch.run?_nil]⟩
  | @changed received previous value result ran =>
    refine ⟨.object (Entries.insert members key result), ?_⟩
    simp only [Patch.run?_under_object (inner_diff _ _) sorted received_eq, ran, Option.map_some]

theorem run?_diffMembers_met {old new : List (String × Json)} (new_sorted : Entries.Sorted new)
    {members : Entries Json} (sorted : members.Sorted) {result : Json}
    (ran : Patch.run? (diffMembers old new) (.object members) = some result) :
    ∃ met : Entries Json, result = .object met ∧ met.Sorted ∧
      (∀ key ∉ Entries.keys new, Entries.find? met key = Entries.find? members key) ∧
      ∀ key ∈ Entries.keys new, MemberMet (Entries.find? members key) (Entries.find? old key)
        (Entries.find? new key) (Entries.find? met key) := by
  induction new generalizing members with
  | nil =>
    cases ran
    exact ⟨members, rfl, sorted, fun _ _ => rfl, fun key mem => by cases mem⟩
  | cons member new ih =>
    obtain ⟨key, value⟩ := member
    rw [diffMembers_cons, Patch.run?_append] at ran
    obtain ⟨middle, first, rest⟩ := Option.bind_eq_some_iff.1 ran
    obtain ⟨begun, rfl, begun_sorted, begun_others, begun_met⟩ := run?_diffMember sorted first
    obtain ⟨met, rfl, met_sorted, others, mets⟩ := ih new_sorted.tail begun_sorted rest
    refine ⟨met, rfl, met_sorted, fun k lacks => ?_, fun k mem => ?_⟩
    · rw [Entries.keys_cons, List.mem_cons, not_or] at lacks
      rw [others k lacks.2, begun_others k lacks.1]
    · rcases List.mem_cons.1 mem with rfl | mem
      · -- the members behind the first one do not touch it any more
        rw [others _ new_sorted.not_mem, Entries.find?, if_pos rfl]
        exact begun_met
      · have ne : k ≠ key := fun eq => new_sorted.not_mem (eq ▸ mem)
        rw [Entries.find?, if_neg (Ne.symm ne), ← begun_others k ne]
        exact mets k mem

theorem exists_run?_diffMembers {old new : List (String × Json)} (new_sorted : Entries.Sorted new)
    {members : Entries Json} (sorted : members.Sorted)
    (possible : ∀ key ∈ Entries.keys new, ∃ met, MemberMet (Entries.find? members key)
      (Entries.find? old key) (Entries.find? new key) met) :
    ∃ result, Patch.run? (diffMembers old new) (.object members) = some result := by
  induction new generalizing members with
  | nil => exact ⟨_, rfl⟩
  | cons member new ih =>
    obtain ⟨key, value⟩ := member
    obtain ⟨met, first_possible⟩ := possible key List.mem_cons_self
    rw [Entries.find?, if_pos rfl] at first_possible
    obtain ⟨middle, first⟩ := exists_run?_diffMember sorted first_possible
    obtain ⟨begun, rfl, begun_sorted, begun_others, -⟩ := run?_diffMember sorted first
    obtain ⟨result, rest⟩ := ih new_sorted.tail begun_sorted fun k mem => by
      have ne : k ≠ key := fun eq => new_sorted.not_mem (eq ▸ mem)
      obtain ⟨met, later⟩ := possible k (List.mem_cons_of_mem _ mem)
      rw [Entries.find?, if_neg (Ne.symm ne), ← begun_others k ne] at later
      exact ⟨met, later⟩
    exact ⟨result, by rw [diffMembers_cons, Patch.run?_append, first]; exact rest⟩

theorem present_of_run?_remove {removed members : Entries Json} (sorted : members.Sorted)
    {result : Json}
    (ran : Patch.run? (removed.map fun member => .remove [member.1]) (.object members) =
      some result) :
    ∀ key ∈ removed.keys, Entries.contains members key = true := by
  induction removed generalizing members with
  | nil => intro key mem; cases mem
  | cons member removed ih =>
    obtain ⟨key, value⟩ := member
    rw [List.map_cons, Patch.run?_cons] at ran
    obtain ⟨middle, first, rest⟩ := Option.bind_eq_some_iff.1 ran
    simp only [Patch.Operation.run?, Patch.remove?, Patch.drop?] at first
    split at first
    · rename_i present
      cases first
      intro k mem
      rcases List.mem_cons.1 mem with rfl | mem
      · exact present
      · have later := ih (sorted.sublist (Entries.erase_sublist members key)) rest k mem
        rw [Entries.contains, Entries.find?_erase sorted] at later
        split at later
        · cases later
        · exact later
    · cases first

theorem run?_diff_object {received old new : Entries Json} (received_sorted : received.Sorted)
    (old_sorted : old.Sorted) (new_sorted : new.Sorted) {result : Json}
    (ran : Patch.run? (diff (.object old) (.object new)) (.object received) = some result) :
    ∃ met : Entries Json, result = .object met ∧ met.Sorted ∧
      ∀ key, MemberMet (Entries.find? received key) (Entries.find? old key)
        (Entries.find? new key) (Entries.find? met key) := by
  rw [diff, ← lacking, Patch.run?_append] at ran
  obtain ⟨middle, first, rest⟩ := Option.bind_eq_some_iff.1 ran
  obtain ⟨begun, rfl, begun_sorted, others, mets⟩ :=
    run?_diffMembers_met new_sorted received_sorted first
  have present := present_of_run?_remove begun_sorted rest
  have lacking_sorted : (lacking old new).Sorted := old_sorted.sublist List.filter_sublist
  obtain ⟨met, ran', met_sorted, finds⟩ := run?_remove lacking_sorted begun_sorted present
  rw [rest] at ran'
  cases ran'
  refine ⟨met, rfl, met_sorted, fun key => ?_⟩
  rw [finds key]
  by_cases inNew : key ∈ new.keys
  · rw [if_neg fun lacks => (mem_keys_lacking.1 lacks).2 inNew]
    exact mets key inNew
  · rw [Entries.find?_eq_none_of_not_mem inNew]
    split
    · rename_i lacks
      -- a member that only the old object has was there and goes
      have there := present key lacks
      rw [Entries.contains, others key inNew] at there
      obtain ⟨value, found⟩ := Option.isSome_iff_exists.1 there
      obtain ⟨previous, held⟩ := Option.isSome_iff_exists.1
        (Entries.find?_isSome_iff.2 (mem_keys_lacking.1 lacks).1)
      rw [found, held]
      exact .removed value previous
    · rename_i kept
      have notOld : key ∉ old.keys := fun mem => kept (mem_keys_lacking.2 ⟨mem, inNew⟩)
      rw [Entries.find?_eq_none_of_not_mem notOld, others key inNew]
      exact .untouched _

theorem exists_run?_diff_object {received old new : Entries Json}
    (received_sorted : received.Sorted) (old_sorted : old.Sorted) (new_sorted : new.Sorted)
    (possible : ∀ key, ∃ met, MemberMet (Entries.find? received key) (Entries.find? old key)
      (Entries.find? new key) met) :
    ∃ result, Patch.run? (diff (.object old) (.object new)) (.object received) = some result := by
  obtain ⟨middle, first⟩ := exists_run?_diffMembers new_sorted received_sorted
    fun key _ => possible key
  obtain ⟨begun, rfl, begun_sorted, others, -⟩ :=
    run?_diffMembers_met new_sorted received_sorted first
  have lacking_sorted : (lacking old new).Sorted := old_sorted.sublist List.filter_sublist
  obtain ⟨met, rest, -, -⟩ := run?_remove lacking_sorted begun_sorted
    fun key mem => by
      obtain ⟨inOld, notNew⟩ := mem_keys_lacking.1 mem
      obtain ⟨met, removed⟩ := possible key
      obtain ⟨previous, held⟩ := Option.isSome_iff_exists.1 (Entries.find?_isSome_iff.2 inOld)
      rw [held, Entries.find?_eq_none_of_not_mem notNew] at removed
      rw [Entries.contains, others key notNew]
      generalize Entries.find? received key = there at removed
      cases removed
      rfl
  refine ⟨.object met, ?_⟩
  rw [diff, ← lacking, Patch.run?_append, first]
  exact rest

/-- What becomes of items when the difference of two arrays is applied to a third one, from a place
on where it is as long as the old array. -/
inductive ItemsMet : (received old new result : List Json) → Prop where
  | removed (received old : List Json) : ItemsMet received old [] []
  | added (new : List Json) : ItemsMet [] [] new new
  | changed {received old new result : Json} {receiveds olds news results : List Json}
    (ran : Patch.run? (diff old new) received = some result)
    (rest : ItemsMet receiveds olds news results) :
    ItemsMet (received :: receiveds) (old :: olds) (new :: news) (result :: results)

theorem run?_diffItems_removed (before received old : List Json)
    (length : received.length = old.length) :
    Patch.run? (diffItems before.length old []) (.array (before ++ received)) =
      some (.array before) := by
  induction received generalizing old with
  | nil =>
    rw [List.length_nil, eq_comm, List.length_eq_zero_iff] at length
    rw [length, List.append_nil]
    rfl
  | cons item received ih =>
    cases old with
    | nil => simp at length
    | cons previous old =>
      have rest := ih old (Nat.succ.inj length)
      rw [diffItems] at rest ⊢
      rw [List.map_cons, Patch.run?_cons, Patch.Operation.run?, Patch.remove?, Patch.drop?_item]
      exact rest

theorem run?_diffItems_added (before new : List Json) :
    Patch.run? (diffItems before.length [] new) (.array before) =
      some (.array (before ++ new)) := by
  induction new generalizing before with
  | nil => rw [List.append_nil]; rfl
  | cons value new ih =>
    have rest := ih (before ++ [value])
    rw [List.length_append, List.length_singleton, List.append_assoc] at rest
    rw [diffItems, Patch.run?_cons, Patch.Operation.run?, Patch.add?, Patch.put?_item]
    exact rest

theorem run?_diffItems_met {before received old new : List Json}
    (length : received.length = old.length) {result : Json}
    (ran : Patch.run? (diffItems before.length old new) (.array (before ++ received)) =
      some result) :
    ∃ met, result = .array (before ++ met) ∧ ItemsMet received old new met := by
  induction new generalizing before received old with
  | nil =>
    rw [run?_diffItems_removed before received old length] at ran
    cases ran
    exact ⟨[], by rw [List.append_nil], .removed received old⟩
  | cons value new ih =>
    cases received with
    | nil =>
      rw [List.length_nil, eq_comm, List.length_eq_zero_iff] at length
      subst length
      rw [List.append_nil, run?_diffItems_added] at ran
      cases ran
      exact ⟨value :: new, rfl, .added _⟩
    | cons item received =>
      cases old with
      | nil => simp at length
      | cons previous old =>
        have here : (before ++ item :: received)[before.length]? = some item := by simp
        rw [diffItems, Patch.run?_append, Patch.run?_under_array (inner_diff _ _) here] at ran
        obtain ⟨middle, first, rest⟩ := Option.bind_eq_some_iff.1 ran
        obtain ⟨changed, inside, rfl⟩ := Option.map_eq_some_iff.1 first
        -- an item that is changed goes over to those before, where the rest of the difference counts from
        have placed : (before ++ item :: received).set before.length changed =
          (before ++ [changed]) ++ received := by simp
        have counted : before.length + 1 = (before ++ [changed]).length := by simp
        rw [placed, counted] at rest
        obtain ⟨met, rfl, mets⟩ := ih (Nat.succ.inj length) rest
        exact ⟨changed :: met, by simp, .changed inside mets⟩

theorem exists_run?_diffItems {before received old new : List Json}
    (length : received.length = old.length)
    (possible : ∀ (index : Nat) (item previous value : Json), received[index]? = some item →
      old[index]? = some previous → new[index]? = some value →
      ∃ result, Patch.run? (diff previous value) item = some result) :
    ∃ result, Patch.run? (diffItems before.length old new) (.array (before ++ received)) =
      some result := by
  induction new generalizing before received old with
  | nil => exact ⟨_, run?_diffItems_removed before received old length⟩
  | cons value new ih =>
    cases received with
    | nil =>
      rw [List.length_nil, eq_comm, List.length_eq_zero_iff] at length
      rw [length, List.append_nil]
      exact ⟨_, run?_diffItems_added before (value :: new)⟩
    | cons item received =>
      cases old with
      | nil => simp at length
      | cons previous old =>
        obtain ⟨changed, inside⟩ := possible 0 item previous value rfl rfl rfl
        obtain ⟨result, rest⟩ := @ih (before ++ [changed]) received old (Nat.succ.inj length)
          fun index item previous value => possible (index + 1) item previous value
        refine ⟨result, ?_⟩
        have here : (before ++ item :: received)[before.length]? = some item := by simp
        rw [diffItems, Patch.run?_append, Patch.run?_under_array (inner_diff _ _) here, inside]
        simpa using rest

/-! ## Fitting -/

def Whole (old new : Json) : Prop :=
  (∀ newMembers oldMembers, new = .object newMembers → old = .object oldMembers → False) ∧
  ∀ newItems oldItems, new = .array newItems → old = .array oldItems → False

/-- A value has all that the difference of two others reaches into: it has every member that is to
be changed or removed, and its items stand beside those of the old value. -/
inductive Fits : (received old new : Json) → Prop where
  | same {received old new : Json} (same : old.same new = true) : Fits received old new
  | whole {received old new : Json} (whole : Whole old new) : Fits received old new
  | items {received old new : List Json} (length : received.length = old.length)
    (fits : ∀ (index : Nat) (item previous value : Json), received[index]? = some item →
      old[index]? = some previous → new[index]? = some value → Fits item previous value) :
    Fits (.array received) (.array old) (.array new)
  | members {received old new : Entries Json}
    (removed : ∀ key ∈ old.keys, key ∉ new.keys → key ∈ received.keys)
    (changed : ∀ key previous value, Entries.find? old key = some previous →
      Entries.find? new key = some value → previous.same value = false → key ∈ received.keys)
    (fits : ∀ key item previous value, Entries.find? received key = some item →
      Entries.find? old key = some previous → Entries.find? new key = some value →
      Fits item previous value) :
    Fits (.object received) (.object old) (.object new)

/-- The difference runs through on a value that fits. -/
theorem Fits.exists_run? {received old new : Json} (fits : Fits received old new)
    (received_canonical : received.Canonical) (old_canonical : old.Canonical)
    (new_canonical : new.Canonical) : ∃ result, Patch.run? (diff old new) received = some result := by
  induction fits with
  | same same => exact ⟨_, by rw [diff_eq_nil_of_same old_canonical new_canonical same]; rfl⟩
  | @whole received old new whole =>
    rw [diff_of_ne whole.1 whole.2]
    split
    · exact ⟨received, rfl⟩
    · exact ⟨new, rfl⟩
  | @items received old new length fits ih =>
    rw [diff]
    -- there is a received item for every old one, so that every part of the difference finds its place
    refine @exists_run?_diffItems [] received old new length
      fun index item previous value received_at old_at new_at => ?_
    exact ih index item previous value received_at old_at new_at
      (received_canonical.of_mem_items _ (List.mem_of_getElem? received_at))
      (old_canonical.of_mem_items _ (List.mem_of_getElem? old_at))
      (new_canonical.of_mem_items _ (List.mem_of_getElem? new_at))
  | @members received old new removed changed fits ih =>
    refine exists_run?_diff_object received_canonical.members_sorted old_canonical.members_sorted
      new_canonical.members_sorted fun key => ?_
    -- only what the difference removes or changes must be there, which fitting says it is
    cases held : Entries.find? old key with
    | none =>
      cases found : Entries.find? new key with
      | none => exact ⟨_, .untouched _⟩
      | some value => exact ⟨_, .added _ value⟩
    | some previous =>
      have inOld : key ∈ old.keys := Entries.mem_keys_of_mem (Entries.mem_of_find? held)
      cases found : Entries.find? new key with
      | none =>
        have notNew : key ∉ new.keys := fun mem => by
          simpa [found] using Entries.find?_isSome_iff.2 mem
        obtain ⟨item, there⟩ := Option.isSome_iff_exists.1
          (Entries.find?_isSome_iff.2 (removed key inOld notNew))
        exact ⟨none, there ▸ .removed item previous⟩
      | some value =>
        have previous_canonical := old_canonical.of_mem_members _ (Entries.mem_of_find? held)
        have value_canonical := new_canonical.of_mem_members _ (Entries.mem_of_find? found)
        cases same : previous.same value with
        | true =>
          exact ⟨_, .kept _ (diff_eq_nil_of_same previous_canonical value_canonical same)⟩
        | false =>
          obtain ⟨item, there⟩ := Option.isSome_iff_exists.1
            (Entries.find?_isSome_iff.2 (changed key previous value held found same))
          obtain ⟨result, ran⟩ := ih key item previous value there held found
            (received_canonical.of_mem_members _ (Entries.mem_of_find? there)) previous_canonical
            value_canonical
          exact ⟨some result, there ▸ .changed ran⟩

theorem whole_or (old new : Json) : Whole old new ∨
    (∃ olds news, old = .array olds ∧ new = .array news) ∨
    ∃ olds news, old = .object olds ∧ new = .object news := by
  cases new with
  | array news =>
    cases old with
    | array olds => exact .inr (.inl ⟨olds, news, rfl, rfl⟩)
    | _ => exact .inl ⟨by simp, by simp⟩
  | object news =>
    cases old with
    | object olds => exact .inr (.inr ⟨olds, news, rfl, rfl⟩)
    | _ => exact .inl ⟨by simp, by simp⟩
  | _ => exact .inl ⟨by simp, by simp⟩

theorem Whole.run?_eq {old new : Json} (whole : Whole old new) {received result : Json}
    (ran : Patch.run? (diff old new) received = some result) :
    (result = received ∧ old.same new = true) ∨ result = new := by
  rw [diff_of_ne whole.1 whole.2] at ran
  split at ran
  · rename_i same
    exact .inl ⟨(Option.some.inj ran).symm, same⟩
  · exact .inr (Option.some.inj ran).symm

namespace Patch

def Operation.Below : Operation → Prop
  | .add path _ | .remove path | .replace path _ => path ≠ []

theorem Operation.below_under (step : String) (operation : Operation) :
    (operation.under step).Below := by
  cases operation <;> exact List.cons_ne_nil _ _

theorem below_under (step : String) (patch : Patch) :
    ∀ operation ∈ under step patch, operation.Below := by
  intro operation mem
  obtain ⟨inner, -, rfl⟩ := List.mem_map.1 mem
  exact inner.below_under step

theorem Operation.Below.run?_null {operation : Operation} (below : operation.Below) :
    operation.run? .null = none := by
  cases operation with
  | add path value | remove path | replace path value =>
    match path with
    | [] => exact absurd rfl below
    | [step] => rfl
    | step :: next :: path => rfl

end Patch

theorem below_diffMembers (old new : List (String × Json)) :
    ∀ operation ∈ diffMembers old new, operation.Below := by
  induction new with
  | nil => intro operation mem; cases mem
  | cons member new ih =>
    rw [diffMembers_cons, diffMember]
    refine List.forall_mem_append.2 ⟨?_, ih⟩
    split
    · exact Patch.below_under _ _
    · exact List.forall_mem_singleton.2 (List.cons_ne_nil _ _)

theorem below_diffItems (index : Nat) (old new : List Json) :
    ∀ operation ∈ diffItems index old new, operation.Below := by
  induction new generalizing index old with
  | nil =>
    intro operation mem
    rw [diffItems] at mem
    obtain ⟨-, -, rfl⟩ := List.mem_map.1 mem
    exact List.cons_ne_nil _ _
  | cons value new ih =>
    cases old with
    | nil => exact List.forall_mem_cons.2 ⟨List.cons_ne_nil _ _, ih (index + 1) []⟩
    | cons previous old =>
      rw [diffItems]
      exact List.forall_mem_append.2 ⟨Patch.below_under _ _, ih (index + 1) old⟩

theorem run?_diff_null {old new : Json} (parts : ¬ Whole old new) {result : Json}
    (ran : Patch.run? (diff old new) .null = some result) : diff old new = [] ∧ result = .null := by
  have below : ∀ operation ∈ diff old new, operation.Below := by
    rcases whole_or old new with whole | ⟨olds, news, rfl, rfl⟩ | ⟨olds, news, rfl, rfl⟩
    · exact absurd whole parts
    · rw [diff]
      exact below_diffItems 0 olds news
    · rw [diff]
      refine List.forall_mem_append.2 ⟨below_diffMembers olds news, ?_⟩
      exact List.forall_mem_map.2 fun member _ => List.cons_ne_nil _ _
  cases patch_eq : diff old new with
  | nil =>
    rw [patch_eq] at ran
    exact ⟨rfl, (Option.some.inj ran).symm⟩
  | cons operation patch =>
    rw [patch_eq] at ran below
    rw [Patch.run?_cons, (below operation List.mem_cons_self).run?_null] at ran
    cases ran

theorem ItemsMet.ran_at {received old new result : List Json}
    (met : ItemsMet received old new result) {index : Nat} {item previous value : Json}
    (received_at : received[index]? = some item) (old_at : old[index]? = some previous)
    (new_at : new[index]? = some value) :
    ∃ changed, Patch.run? (diff previous value) item = some changed := by
  induction met generalizing index with
  | removed received old => cases new_at
  | added new => cases received_at
  | changed ran rest ih =>
    cases index with
    | zero =>
      cases received_at
      cases old_at
      cases new_at
      exact ⟨_, ran⟩
    | succ index => exact ih received_at old_at new_at

/-- The items that come out stand to the new ones as each of the new ones stands to itself and each
one that was changed to the new one in its place. -/
theorem ItemsMet.forall₂ {R : Json → Json → Prop} {received old new result : List Json}
    (met : ItemsMet received old new result) (after : ∀ value ∈ new, R value value)
    (inside : ∀ (index : Nat) (item previous value changed : Json), received[index]? = some item →
      old[index]? = some previous → new[index]? = some value →
      Patch.run? (diff previous value) item = some changed → R changed value) :
    List.Forall₂ R result new := by
  induction met with
  | removed received old => exact .nil
  | added new => exact List.forall₂_same.2 after
  | changed ran rest ih =>
    rw [List.forall_mem_cons] at after
    exact .cons (inside 0 _ _ _ _ rfl rfl rfl ran)
      (ih after.2 fun index item previous value => inside (index + 1) item previous value)

theorem Fits.of_items {received old new result : List Json} (length : received.length = old.length)
    (met : ItemsMet received old new result)
    (inside : ∀ (index : Nat) (item previous value changed : Json), received[index]? = some item →
      old[index]? = some previous → new[index]? = some value →
      Patch.run? (diff previous value) item = some changed → Fits item previous value) :
    Fits (.array received) (.array old) (.array new) := by
  refine .items length fun index item previous value received_at old_at new_at => ?_
  obtain ⟨changed, ran⟩ := met.ran_at received_at old_at new_at
  exact inside index item previous value changed received_at old_at new_at ran

theorem Fits.of_members {received old new : Entries Json} (old_canonical : (Json.object old).Canonical)
    (new_canonical : (Json.object new).Canonical)
    (met : ∀ key, ∃ result, MemberMet (Entries.find? received key) (Entries.find? old key)
      (Entries.find? new key) result)
    (inside : ∀ key item previous value changed, Entries.find? received key = some item →
      Entries.find? old key = some previous → Entries.find? new key = some value →
      Patch.run? (diff previous value) item = some changed → Fits item previous value) :
    Fits (.object received) (.object old) (.object new) := by
  -- an empty difference asks for nothing, but then the two are the same and fit without it
  have same_of_empty {key : String} {previous value : Json}
      (held : Entries.find? old key = some previous) (found : Entries.find? new key = some value)
      (empty : diff previous value = []) : previous.same value = true :=
    (diff_eq_nil_iff (old_canonical.of_mem_members _ (Entries.mem_of_find? held))
      (new_canonical.of_mem_members _ (Entries.mem_of_find? found))).1 empty
  refine .members ?_ ?_ ?_
  · intro key inOld notNew
    obtain ⟨result, here⟩ := met key
    obtain ⟨previous, held⟩ := Option.isSome_iff_exists.1 (Entries.find?_isSome_iff.2 inOld)
    rw [held, Entries.find?_eq_none_of_not_mem notNew] at here
    generalize there : Entries.find? received key = member at here
    cases here with
    | removed item => exact Entries.find?_isSome_iff.1 (by rw [there]; rfl)
  · intro key previous value held found differ
    obtain ⟨result, here⟩ := met key
    rw [held, found] at here
    generalize there : Entries.find? received key = member at here
    cases here with
    | kept _ empty => simp [same_of_empty held found empty] at differ
    | changed => exact Entries.find?_isSome_iff.1 (by rw [there]; rfl)
  · intro key item previous value there held found
    obtain ⟨result, here⟩ := met key
    rw [there, held, found] at here
    cases here with
    | kept _ empty => exact .same (same_of_empty held found empty)
    | changed ran => exact inside key item previous value _ there held found ran

end Admission.Json
