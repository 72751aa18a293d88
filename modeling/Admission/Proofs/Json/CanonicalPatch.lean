import Admission.Proofs.Json.Difference

/-! A patch that carries canonical values keeps a value canonical. -/

set_option autoImplicit false

namespace Admission.Json

theorem Canonical.insert {members : Entries Json} (canonical : (Json.object members).Canonical)
    (key : String) {value : Json} (value_canonical : value.Canonical) :
    (Json.object (Entries.insert members key value)).Canonical := by
  have sorted := canonical.members_sorted.insert key value
  refine .object sorted fun member mem => ?_
  have found := sorted.find?_of_mem mem
  rw [Entries.find?_insert] at found
  split at found
  · cases found; exact value_canonical
  · exact canonical.of_mem_members _ (Entries.mem_of_find? found)

theorem Canonical.of_alter? {json result : Json} (canonical : json.Canonical) {step : String}
    {change : Json → Option Json} (altered : json.alter? step change = some result)
    (kept : ∀ value changed : Json, value.Canonical → change value = some changed →
      changed.Canonical) : result.Canonical := by
  cases json with
  | object members =>
    obtain ⟨value, held, rest⟩ := Option.bind_eq_some_iff.1 altered
    obtain ⟨changed, ran, eq⟩ := Option.bind_eq_some_iff.1 rest
    cases eq
    exact canonical.insert step
      (kept value changed (canonical.of_mem_members _ (Entries.mem_of_find? held)) ran)
  | array items =>
    obtain ⟨index, -, rest⟩ := Option.bind_eq_some_iff.1 altered
    obtain ⟨value, held, rest⟩ := Option.bind_eq_some_iff.1 rest
    obtain ⟨changed, ran, eq⟩ := Option.bind_eq_some_iff.1 rest
    cases eq
    refine .array fun item mem => ?_
    rcases List.mem_or_eq_of_mem_set mem with mem | rfl
    · exact canonical.of_mem_items item mem
    · exact kept value item (canonical.of_mem_items value (List.mem_of_getElem? held)) ran
  | _ => cases altered

namespace Patch

theorem canonical_put? {json value result : Json} (canonical : json.Canonical)
    (value_canonical : value.Canonical) {step : String} (put : put? json step value = some result) :
    result.Canonical := by
  cases json with
  | object members => cases put; exact canonical.insert step value_canonical
  | array items =>
    have items_canonical := canonical.of_mem_items
    rw [put?] at put
    split at put
    · cases put
      refine .array fun item mem => ?_
      rcases List.mem_append.1 mem with mem | mem
      · exact items_canonical item mem
      · rw [List.mem_singleton.1 mem]
        exact value_canonical
    · obtain ⟨index, -, inserted⟩ := Option.bind_eq_some_iff.1 put
      split at inserted
      next bound =>
        cases inserted
        refine .array fun item mem => ?_
        rcases (List.mem_insertIdx bound).1 mem with rfl | mem
        · exact value_canonical
        · exact items_canonical item mem
      next => cases inserted
  | _ => cases put

theorem canonical_drop? {json result : Json} (canonical : json.Canonical) {step : String}
    (dropped : drop? json step = some result) : result.Canonical := by
  cases json with
  | object members =>
    rw [drop?] at dropped
    split at dropped
    · cases dropped
      have sublist := Entries.erase_sublist members step
      exact .object (canonical.members_sorted.sublist sublist)
        fun member mem => canonical.of_mem_members member (sublist.subset mem)
    · cases dropped
  | array items =>
    obtain ⟨index, -, erased⟩ := Option.bind_eq_some_iff.1 dropped
    split at erased
    · cases erased
      exact .array fun item mem => canonical.of_mem_items item (List.eraseIdx_subset mem)
    · cases erased
  | _ => cases dropped

theorem Operation.canonical_run? {operation : Operation} (carries : operation.Carries Canonical)
    {json result : Json} (canonical : json.Canonical) (ran : operation.run? json = some result) :
    result.Canonical := by
  -- the induction is on the path, with the value behind each step in the place of the whole one
  cases operation with
  | add path value =>
    have value_canonical := carries.2
    clear carries
    rw [run?] at ran
    induction path generalizing json result with
    | nil => cases ran; exact value_canonical
    | cons step path ih =>
      cases path with
      | nil => exact canonical_put? canonical value_canonical ran
      | cons => exact canonical.of_alter? ran fun _ _ inner => ih inner
  | remove path =>
    clear carries
    rw [run?] at ran
    induction path generalizing json result with
    | nil => cases ran
    | cons step path ih =>
      cases path with
      | nil => exact canonical_drop? canonical ran
      | cons => exact canonical.of_alter? ran fun _ _ inner => ih inner
  | replace path value =>
    have value_canonical : value.Canonical := carries
    clear carries
    rw [run?] at ran
    induction path generalizing json result with
    | nil => cases ran; exact value_canonical
    | cons step path ih => exact canonical.of_alter? ran fun _ _ inner => ih inner

theorem canonical_run? {patch : Patch} (carries : ∀ operation ∈ patch, operation.Carries Canonical)
    {json result : Json} (canonical : json.Canonical) (ran : run? patch json = some result) :
    result.Canonical := by
  induction patch generalizing json with
  | nil => cases ran; exact canonical
  | cons operation patch ih =>
    rw [List.forall_mem_cons] at carries
    obtain ⟨middle, first, rest⟩ := Option.bind_eq_some_iff.1 ran
    exact ih carries.2 (operation.canonical_run? carries.1 canonical first) rest

end Patch

end Admission.Json
