import Admission.Proofs.Json.Fitting
import Admission.Proofs.Kubernetes.Reading

/-! The difference between the written form of a value and a form that reads back as itself, applied
to the value as it was received. What it makes is decoded to that form. -/

set_option autoImplicit false

namespace Admission

theorem rel_of_forall₂ {α β : Type} {R : α → β → Prop} {xs : List α} {ys : List β}
    (related : List.Forall₂ R xs ys) {index : Nat} {x : α} {y : β} (x_at : xs[index]? = some x)
    (y_at : ys[index]? = some y) : R x y := by
  induction related generalizing index with
  | nil => cases x_at
  | cons first rest ih =>
    cases index with
    | zero =>
      cases x_at
      cases y_at
      exact first
    | succ index => exact ih x_at y_at

namespace Kubernetes

open Json (Fits MemberMet Patch Whole diff)

theorem MemberReads.of_same {schema : Schema} {key : String} {member : Option Json}
    {value other : Json} (reads : MemberReads schema key member (some value))
    (same : value.same other = true) : MemberReads schema key member (some other) := by
  obtain ⟨written, read, eq⟩ := reads
  cases eq with
  | some eq => exact ⟨_, read, .some (Json.same_trans eq same)⟩

/-- What becomes of a member is read as the new one if it is so wherever the member is changed. -/
theorem MemberReads.met {schema : Schema} {key : String} {received old new result : Option Json}
    (met : MemberMet received old new result) (before : MemberReads schema key received old)
    (after : MemberReads schema key new new) (old_canonical : ∀ json ∈ old, json.Canonical)
    (new_canonical : ∀ json ∈ new, json.Canonical)
    (inside : ∀ item previous value changed, received = some item → old = some previous →
      new = some value → Patch.run? (diff previous value) item = some changed →
      MemberReads schema key (some changed) (some value)) :
    MemberReads schema key result new := by
  cases met with
  | untouched => exact before
  | added | removed => exact after
  | kept _ empty =>
    exact before.of_same
      ((Json.diff_eq_nil_iff (old_canonical _ rfl) (new_canonical _ rfl)).1 empty)
  | changed ran => exact inside _ _ _ _ rfl rfl rfl ran

theorem Reads.ne_null {schema : Schema} {json old value : Json} (parts : ¬ Whole old value)
    (reads : Reads schema json value) : json ≠ .null := by
  rintro rfl
  rcases Json.whole_or old value with whole | ⟨-, items, -, rfl⟩ | ⟨-, members, -, rfl⟩
  · exact parts whole
  · obtain ⟨received, eq⟩ := reads.exists_items
    cases eq
  · obtain ⟨received, eq⟩ := reads.exists_members
    cases eq

/-- A member that was changed fits the change and is read as the new one, if the values of its schema
do. -/
theorem MemberReads.changed {schema : Schema} (distinct : schema.distinct = true) {key : String}
    {item previous value changed : Json} (previous_canonical : previous.Canonical)
    (value_canonical : value.Canonical)
    (before : MemberReads schema key (some item) (some previous))
    (after : MemberReads schema key (some value) (some value))
    (ran : Patch.run? (diff previous value) item = some changed)
    (inside : ∀ inner : Schema, inner.distinct = true → Reads inner item previous →
      Reads inner value value → Fits item previous value ∧ Reads inner changed value) :
    Fits item previous value ∧ MemberReads schema key (some changed) (some value) := by
  -- a difference that replaces the member, or leaves it, does not ask what is inside
  by_cases whole : Whole previous value
  · refine ⟨.whole whole, ?_⟩
    rcases whole.run?_eq ran with ⟨rfl, same⟩ | rfl
    · exact before.of_same same
    · exact after
  -- a null in the place of a default has no inside that another difference could change
  have unchanged (null : item = .null) :
      Fits item previous value ∧ MemberReads schema key (some changed) (some value) := by
    subst null
    obtain ⟨empty, rfl⟩ := Json.run?_diff_null whole ran
    have same := (Json.diff_eq_nil_iff previous_canonical value_canonical).1 empty
    exact ⟨.same same, before.of_same same⟩
  obtain ⟨old, old_read, old_same⟩ := before
  obtain ⟨new, new_read, new_same⟩ := after
  cases old_same with
  | some old_same =>
  cases new_same with
  | some new_same =>
  cases old_read with
  | value known old_read =>
    cases new_read with
    | value again new_read =>
      cases known.symm.trans again
      cases old_read with
      | some old_read =>
      cases new_read with
      | some new_read =>
      obtain ⟨fits, tree, decoded, same⟩ := inside _ (distinct_of_value? distinct known)
        ⟨_, old_read, old_same⟩ ⟨_, new_read, new_same⟩
      exact ⟨fits, some tree, .value known (.some decoded), .some same⟩
    | field => cases known
  | @field name fields _ field _ _ known old_read =>
    rw [Schema.distinct, Bool.and_eq_true] at distinct
    cases new_read with
    | value again => cases again
    | field again new_read =>
      cases known.symm.trans again
      cases old_read with
      | filled skips => exact unchanged (eq_null_of_skipsNull skips)
      | decoded counts old_read =>
        cases new_read with
        | filled skips =>
          cases eq_null_of_skipsNull skips
          exact absurd ⟨by simp, by simp⟩ whole
        | decoded _ new_read =>
          obtain ⟨fits, reads⟩ := inside field.2 (distinct_of_lookup distinct.2 known)
            ⟨_, old_read, old_same⟩ ⟨_, new_read, new_same⟩
          have counts : field.2.skipsNull changed = false := Bool.eq_false_iff.2 fun skips =>
            reads.ne_null whole (eq_null_of_skipsNull skips)
          obtain ⟨tree, decoded, same⟩ := reads
          exact ⟨fits, some tree, .field known (.decoded counts decoded), .some same⟩

/-- A value that is read as an old one, and on which the difference of the old one and this one runs
through, fits that difference and becomes a value that is read as this one. -/
def Reached (new : Json) : Prop :=
  ∀ {schema : Schema} {received old result : Json}, schema.distinct = true → received.Canonical →
    old.Canonical → new.Canonical → Reads schema received old → Reads schema new new →
    Patch.run? (diff old new) received = some result → Fits received old new ∧ Reads schema result new

theorem reads_of_whole {schema : Schema} {received old new result : Json}
    (before : Reads schema received old) (after : Reads schema new new)
    (ran : Patch.run? (diff old new) received = some result) (whole : Whole old new) :
    Fits received old new ∧ Reads schema result new := by
  refine ⟨.whole whole, ?_⟩
  rcases whole.run?_eq ran with ⟨rfl, same⟩ | rfl
  · exact before.of_same same
  · exact after

theorem reached_array {news : List Json} (parts : ∀ value ∈ news, Reached value) :
    Reached (.array news) := by
  intro schema received old result distinct received_canonical old_canonical new_canonical before
    after ran
  cases old with
  | array olds =>
    obtain ⟨receiveds, rfl⟩ := before.exists_items
    obtain ⟨item, known, befores⟩ := reads_array_iff.1 before
    obtain ⟨again, again_known, afters⟩ := reads_array_iff.1 after
    cases known.symm.trans again_known
    rw [diff] at ran
    obtain ⟨met, rfl, mets⟩ := @Json.run?_diffItems_met [] receiveds olds news befores.length_eq
      result ran
    -- the parts at one index are received, old and new values of one type
    have inside (index : Nat) (received previous value changed : Json)
        (received_at : receiveds[index]? = some received) (old_at : olds[index]? = some previous)
        (new_at : news[index]? = some value)
        (changes : Patch.run? (diff previous value) received = some changed) :
        Fits received previous value ∧ Reads item changed value :=
      parts value (List.mem_of_getElem? new_at) (distinct_of_item? distinct known)
        (received_canonical.of_mem_items _ (List.mem_of_getElem? received_at))
        (old_canonical.of_mem_items _ (List.mem_of_getElem? old_at))
        (new_canonical.of_mem_items _ (List.mem_of_getElem? new_at))
        (rel_of_forall₂ befores received_at old_at) (rel_of_forall₂ afters new_at new_at) changes
    constructor
    · apply Fits.of_items befores.length_eq mets
      intro index received previous value changed received_at old_at new_at changes
      exact (inside index received previous value changed received_at old_at new_at changes).1
    · refine reads_array_iff.2 ⟨item, known, mets.forall₂ (List.forall₂_same.1 afters) ?_⟩
      intro index received previous value changed received_at old_at new_at changes
      exact (inside index received previous value changed received_at old_at new_at changes).2
  | _ => exact reads_of_whole before after ran ⟨by simp, by simp⟩

theorem reached_object {news : Entries Json} (parts : ∀ member ∈ news, Reached member.2) :
    Reached (.object news) := by
  intro schema received old result distinct received_canonical old_canonical new_canonical before
    after ran
  cases old with
  | object olds =>
    obtain ⟨receiveds, rfl⟩ := before.exists_members
    have received_sorted := received_canonical.members_sorted
    have old_sorted := old_canonical.members_sorted
    have new_sorted := new_canonical.members_sorted
    have befores := (reads_object_iff distinct received_sorted old_sorted).1 before
    have afters := (reads_object_iff distinct new_sorted new_sorted).1 after
    obtain ⟨met, rfl, met_sorted, mets⟩ :=
      Json.run?_diff_object received_sorted old_sorted new_sorted ran
    have old_values (key : String) : ∀ json ∈ Entries.find? olds key, json.Canonical :=
      fun json held => old_canonical.of_mem_members _ (Entries.mem_of_find? held)
    have new_values (key : String) : ∀ json ∈ Entries.find? news key, json.Canonical :=
      fun json held => new_canonical.of_mem_members _ (Entries.mem_of_find? held)
    -- so are the members of one key, unless the received one stands for a default
    have inside (key : String) (item previous value changed : Json)
        (there : Entries.find? receiveds key = some item)
        (held : Entries.find? olds key = some previous)
        (found : Entries.find? news key = some value)
        (changes : Patch.run? (diff previous value) item = some changed) :
        Fits item previous value ∧ MemberReads schema key (some changed) (some value) :=
      MemberReads.changed distinct (old_values key _ held) (new_values key _ found)
        (there ▸ held ▸ befores key) (found ▸ afters key) changes
        fun inner inner_distinct item_reads value_reads =>
          parts _ (Entries.mem_of_find? found) inner_distinct
            (received_canonical.of_mem_members _ (Entries.mem_of_find? there))
            (old_values key _ held) (new_values key _ found) item_reads value_reads changes
    constructor
    · apply Fits.of_members old_canonical new_canonical fun key => ⟨_, mets key⟩
      intro key item previous value changed there held found changes
      exact (inside key item previous value changed there held found changes).1
    · refine (reads_object_iff distinct met_sorted new_sorted).2 fun key => ?_
      apply (befores key).met (mets key) (afters key) (old_values key) (new_values key)
      intro item previous value changed there held found changes
      exact found ▸ (inside key item previous value changed there held found changes).2
  | _ => exact reads_of_whole before after ran ⟨by simp, by simp⟩

theorem reached (new : Json) : Reached new := by
  -- the parts of the new value are what its difference from an old one goes through
  induction new with
  | array news ih => exact reached_array ih
  | object news ih => exact reached_object ih
  | _ =>
    intro schema received old result _ _ _ _ before after ran
    exact reads_of_whole before after ran ⟨by simp, by simp⟩

end Kubernetes

end Admission
