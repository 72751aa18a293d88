import Admission.Proofs.Json.Difference
import Admission.Proofs.Json.Rereading

/-! Where a patch applies does not depend on numbers, neither on those it carries nor on those of the
value it is applied to. So a patch that was read from its text, with its numbers re-read, applies where
the patch itself does, and makes the same value but for numbers that were re-read. -/

set_option autoImplicit false

namespace Admission.Json

section

variable {α β : Type} {R : α → β → Prop} {items : List α} {others : List β}

theorem forall₂_set (pairs : List.Forall₂ R items others) (index : Nat) {item : α} {other : β}
    (pair : R item other) : List.Forall₂ R (items.set index item) (others.set index other) := by
  induction pairs generalizing index with
  | nil => exact .nil
  | cons first pairs ih =>
    cases index with
    | zero => exact .cons pair pairs
    | succ index => exact .cons first (ih index)

theorem forall₂_insertIdx (pairs : List.Forall₂ R items others) (index : Nat) {item : α} {other : β}
    (pair : R item other) :
    List.Forall₂ R (items.insertIdx index item) (others.insertIdx index other) := by
  induction pairs generalizing index with
  | nil =>
    cases index with
    | zero => exact .cons pair .nil
    | succ index => exact .nil
  | cons first pairs ih =>
    cases index with
    | zero => exact .cons pair (.cons first pairs)
    | succ index => exact .cons first (ih index)

theorem forall₂_eraseIdx (pairs : List.Forall₂ R items others) (index : Nat) :
    List.Forall₂ R (items.eraseIdx index) (others.eraseIdx index) := by
  induction pairs generalizing index with
  | nil => exact .nil
  | cons first pairs ih =>
    cases index with
    | zero => exact pairs
    | succ index => exact .cons first (ih index)

theorem exists_getElem?_of_forall₂ (pairs : List.Forall₂ R items others) {index : Nat} {item : α}
    (found : items[index]? = some item) : ∃ other, others[index]? = some other ∧ R item other := by
  induction pairs generalizing index with
  | nil => cases found
  | cons first pairs ih =>
    cases index with
    | zero =>
      cases found
      exact ⟨_, rfl, first⟩
    | succ index => exact ih found

end

section

variable {R : Number → Number → Prop} {members others : Entries Json}

theorem exists_find?_of_lifts (pairs : List.Forall₂ (MemberLifts R) members others) {key : String}
    {value : Json} (found : members.find? key = some value) :
    ∃ other, others.find? key = some other ∧ Lifts R value other := by
  have related := Entries.find?_rel_of_forall₂ pairs key
  rw [found] at related
  generalize others.find? key = other at related
  cases related with
  | some related => exact ⟨_, rfl, related⟩

theorem contains_of_lifts (pairs : List.Forall₂ (MemberLifts R) members others) (key : String) :
    members.contains key = others.contains key := by
  have related := Entries.find?_rel_of_forall₂ pairs key
  rw [Entries.contains, Entries.contains]
  generalize members.find? key = value, others.find? key = other at related
  cases related <;> rfl

theorem lifts_insert (pairs : List.Forall₂ (MemberLifts R) members others) (key : String)
    {value other : Json} (lifts : Lifts R value other) :
    List.Forall₂ (MemberLifts R) (members.insert key value) (others.insert key other) := by
  induction pairs with
  | nil => exact .cons ⟨rfl, lifts⟩ .nil
  | @cons first second members others pair pairs ih =>
    obtain ⟨⟨k, v⟩, ⟨l, w⟩⟩ := first, second
    obtain ⟨rfl, related⟩ : k = l ∧ Lifts R v w := pair
    rw [Entries.insert, Entries.insert]
    split
    · exact .cons ⟨rfl, lifts⟩ (.cons ⟨rfl, related⟩ pairs)
    · split
      · exact .cons ⟨rfl, lifts⟩ pairs
      · exact .cons ⟨rfl, related⟩ ih

theorem lifts_erase (pairs : List.Forall₂ (MemberLifts R) members others) (key : String) :
    List.Forall₂ (MemberLifts R) (members.erase key) (others.erase key) := by
  induction pairs with
  | nil => exact .nil
  | @cons first second members others pair pairs ih =>
    obtain ⟨⟨k, v⟩, ⟨l, w⟩⟩ := first, second
    obtain ⟨rfl, related⟩ : k = l ∧ Lifts R v w := pair
    rw [Entries.erase, Entries.erase]
    split
    · exact pairs
    · exact .cons ⟨rfl, related⟩ ih

end

section

variable {R : Number → Number → Prop}

/-- One change does to a value what the other does to one that differs in numbers. -/
def Simulates (R : Number → Number → Prop) (change other : Json → Option Json) : Prop :=
  ∀ json changed again, Lifts R json again → change json = some changed →
    ∃ result, other again = some result ∧ Lifts R changed result

theorem simulates_alter? (step : String) {change other : Json → Option Json}
    (simulates : Simulates R change other) :
    Simulates R (fun json => json.alter? step change) (fun json => json.alter? step other) := by
  intro json changed again lifts altered
  cases json with
  | object members =>
    obtain ⟨value, held, rest⟩ := Option.bind_eq_some_iff.1 altered
    obtain ⟨changed, ran, eq⟩ := Option.bind_eq_some_iff.1 rest
    cases eq
    obtain ⟨others, rfl, pairs⟩ := lifts.exists_members
    obtain ⟨value', held', related⟩ := exists_find?_of_lifts pairs held
    obtain ⟨result, ran', changed_related⟩ := simulates value changed value' related ran
    exact ⟨_, by simp [alter?, held', ran'], .of_members (lifts_insert pairs step changed_related)⟩
  | array items =>
    obtain ⟨index, index_eq, rest⟩ := Option.bind_eq_some_iff.1 altered
    obtain ⟨item, held, rest⟩ := Option.bind_eq_some_iff.1 rest
    obtain ⟨changed, ran, eq⟩ := Option.bind_eq_some_iff.1 rest
    cases eq
    obtain ⟨others, rfl, pairs⟩ := lifts.exists_items
    obtain ⟨item', held', related⟩ := exists_getElem?_of_forall₂ pairs held
    obtain ⟨result, ran', changed_related⟩ := simulates item changed item' related ran
    exact ⟨_, by simp [alter?, index_eq, held', ran'],
      .array (forall₂_set pairs index changed_related)⟩
  | _ => cases altered

namespace Patch

theorem simulates_put? (step : String) {value other : Json} (value_lifts : Lifts R value other) :
    Simulates R (fun json => put? json step value) (fun json => put? json step other) := by
  intro json changed again lifts put
  cases json with
  | object members =>
    cases put
    obtain ⟨others, rfl, pairs⟩ := lifts.exists_members
    exact ⟨_, rfl, .of_members (lifts_insert pairs step value_lifts)⟩
  | array items =>
    obtain ⟨others, rfl, pairs⟩ := lifts.exists_items
    have length_eq := pairs.length_eq
    simp only [put?] at put ⊢
    split at put
    · rename_i last
      cases put
      exact ⟨_, if_pos last, .array (List.rel_append pairs (.cons value_lifts .nil))⟩
    · rename_i notLast
      obtain ⟨index, index_eq, inserted⟩ := Option.bind_eq_some_iff.1 put
      split at inserted
      next bound =>
        cases inserted
        rw [length_eq] at bound
        exact ⟨_, by rw [if_neg notLast, index_eq]; exact if_pos bound,
          .array (forall₂_insertIdx pairs index value_lifts)⟩
      next => cases inserted
  | _ => cases put

theorem simulates_drop? (step : String) :
    Simulates R (fun json => drop? json step) (fun json => drop? json step) := by
  intro json changed again lifts dropped
  cases json with
  | object members =>
    obtain ⟨others, rfl, pairs⟩ := lifts.exists_members
    simp only [drop?] at dropped ⊢
    split at dropped
    · rename_i held
      cases dropped
      rw [contains_of_lifts pairs] at held
      exact ⟨_, if_pos held, .of_members (lifts_erase pairs step)⟩
    · cases dropped
  | array items =>
    obtain ⟨others, rfl, pairs⟩ := lifts.exists_items
    obtain ⟨index, index_eq, erased⟩ := Option.bind_eq_some_iff.1 dropped
    split at erased
    · rename_i bound
      cases erased
      rw [pairs.length_eq] at bound
      exact ⟨_, by simp [drop?, index_eq, bound], .array (forall₂_eraseIdx pairs index)⟩
    · cases erased
  | _ => cases dropped

inductive Operation.Lifts (R : Number → Number → Prop) : Operation → Operation → Prop where
  | add (path : Pointer) {value other : Json} (lifts : Json.Lifts R value other) :
    Lifts R (.add path value) (.add path other)
  | remove (path : Pointer) : Lifts R (.remove path) (.remove path)
  | replace (path : Pointer) {value other : Json} (lifts : Json.Lifts R value other) :
    Lifts R (.replace path value) (.replace path other)

theorem Operation.Lifts.symm {S : Number → Number → Prop} (back : ∀ value other, R value other →
    S other value) {operation other : Operation} (lifts : Lifts R operation other) :
    Lifts S other operation := by
  cases lifts with
  | add path lifts => exact .add path (lifts.symm back)
  | remove path => exact .remove path
  | replace path lifts => exact .replace path (lifts.symm back)

theorem Operation.Lifts.simulates_run? {operation other : Operation} (lifts : Lifts R operation other) :
    Simulates R operation.run? other.run? := by
  -- the induction is on the path, with the value behind each step in the place of the whole one
  cases lifts with
  | @add path value other lifts =>
    change Simulates R (add? value · path) (add? other · path)
    induction path with
    | nil =>
      rintro json changed again - ⟨⟩
      exact ⟨_, rfl, lifts⟩
    | cons step path ih =>
      cases path with
      | nil => exact simulates_put? step lifts
      | cons => exact simulates_alter? step ih
  | remove path =>
    change Simulates R (remove? · path) (remove? · path)
    induction path with
    | nil => rintro json changed again - ⟨⟩
    | cons step path ih =>
      cases path with
      | nil => exact simulates_drop? step
      | cons => exact simulates_alter? step ih
  | @replace path value other lifts =>
    change Simulates R (replace? value · path) (replace? other · path)
    induction path with
    | nil =>
      rintro json changed again - ⟨⟩
      exact ⟨_, rfl, lifts⟩
    | cons step path ih => exact simulates_alter? step ih

/-- Patches that differ in numbers alone apply to values that differ in numbers alone, and make such
values of them. -/
theorem simulates_run? {patch other : Patch}
    (pairs : List.Forall₂ (Operation.Lifts R) patch other) :
    Simulates R patch.run? other.run? := by
  induction pairs with
  | nil =>
    rintro json changed again lifts ⟨⟩
    exact ⟨again, rfl, lifts⟩
  | cons pair pairs ih =>
    intro json changed again lifts ran
    obtain ⟨middle, first, rest⟩ := Option.bind_eq_some_iff.1 ran
    obtain ⟨middle', first', related⟩ := pair.simulates_run? json middle again lifts first
    obtain ⟨result, rest', changed_related⟩ := ih middle changed middle' related rest
    exact ⟨result, by rw [run?_cons, first', Option.bind_some]; exact rest', changed_related⟩

end Patch

end

namespace Patch

def Operation.reread : Operation → Operation
  | .add path value => .add path value.reread
  | .remove path => .remove path
  | .replace path value => .replace path value.reread

def reread (patch : Patch) : Patch :=
  patch.map Operation.reread

theorem lifts_reread (patch : Patch) :
    List.Forall₂ (Operation.Lifts Number.Rereads) patch patch.reread := by
  rw [reread, List.forall₂_map_right_iff, List.forall₂_same]
  intro operation _
  cases operation with
  | add path value => exact .add path (rereads_reread value)
  | remove path => exact .remove path
  | replace path value => exact .replace path (rereads_reread value)

theorem exists_run?_reread {patch : Patch} {json result : Json} (ran : run? patch json = some result) :
    ∃ patched, run? patch.reread json = some patched ∧ result.Rereads patched :=
  simulates_run? patch.lifts_reread json result json (rereads_self json) ran

/-- A patch applies as it is read exactly if it applies as it was written. -/
theorem isSome_run?_reread (patch : Patch) (json : Json) :
    (run? patch.reread json).isSome = (run? patch json).isSome := by
  have back : List.Forall₂ (Operation.Lifts fun number other => other.Rereads number) patch.reread
      patch := (patch.lifts_reread.imp fun _ _ lifts => lifts.symm fun _ _ rereads => rereads).flip
  rw [Bool.eq_iff_iff, Option.isSome_iff_exists, Option.isSome_iff_exists]
  constructor
  · rintro ⟨patched, ran⟩
    obtain ⟨result, ran, -⟩ :=
      simulates_run? back json patched json (.refl (fun _ => .inl rfl) json) ran
    exact ⟨result, ran⟩
  · rintro ⟨result, ran⟩
    obtain ⟨patched, ran, -⟩ := exists_run?_reread ran
    exact ⟨patched, ran⟩

theorem Operation.reread_eq {operation : Operation} (carries : operation.Carries ReadsBack) :
    operation.reread = operation := by
  cases operation with
  | add path value => exact congrArg (Operation.add path) carries.2
  | remove path => rfl
  | replace path value => exact congrArg (Operation.replace path) carries

theorem reread_eq {patch : Patch} (carries : ∀ operation ∈ patch, operation.Carries ReadsBack) :
    patch.reread = patch := by
  rw [reread]
  conv_rhs => rw [← List.map_id patch]
  exact List.map_inj_left.2 fun operation mem => Operation.reread_eq (carries operation mem)

theorem Operation.toJson_reread (operation : Operation) :
    operation.reread.toJson = operation.toJson.reread := by
  cases operation <;> rfl

theorem toJson_reread (patch : Patch) : patch.reread.toJson = patch.toJson.reread := by
  rw [toJson, toJson, reread_array, reread, List.map_map, List.map_map]
  exact congrArg Json.array (List.map_congr_left fun operation _ => operation.toJson_reread)

end Patch

end Admission.Json
