import Admission.Proofs.Webhook.Resubmission

/-! Which objects pass where labels are required: those that are deleted and those that have all of
them. An object is rejected with a message that lists the labels it lacks. What decides is the list
as it is written, so that an object passes too if it lacks no label but one with the empty name. -/

set_option autoImplicit false

namespace Admission.Labels

variable {σ : Type}

theorem intercalate_eq_empty_iff (texts : List String) :
    ", ".intercalate texts = "" ↔ texts = [] ∨ texts = [""] := by
  match texts with
  | [] => simp
  | [text] => simp
  | first :: second :: rest => simp [String.intercalate_cons_cons]

def lacking (required : List String) (object : Object) : List String :=
  required.filter fun key => key ∉ (object.labels.getD ∅).keys

theorem lacking_eq_nil_iff {required : List String} {object : Object} :
    lacking required object = [] ↔ ∀ key ∈ required, key ∈ (object.labels.getD ∅).keys := by
  simp [lacking]

theorem missing_eq_lacking (required : List String) (object : Object) :
    missing required object.labels = lacking required object := by
  refine List.filter_congr fun key _ => ?_
  have there : (object.labels.getD ∅).contains key = true ↔ key ∈ (object.labels.getD ∅).keys :=
    Entries.contains_iff
  rw [Bool.eq_iff_iff, Bool.not_eq_true', ← Bool.not_eq_true, there, decide_eq_true_iff]

/-- The verdict on an object: what is deleted passes, and else what lacks nothing, as far as the list
of what it lacks can tell. -/
theorem run_validator (required : List String) (context : Context) (review : Review)
    (object : Object) (state : State σ) :
    (validator required).run context review object state =
      ⟨.done (if review.operation = .delete ∨ lacking required object = [] ∨
          lacking required object = [""] then {}
        else
          { valid := false
            message := "missing required labels: " ++ ", ".intercalate (lacking required object) }),
        state⟩ := by
  simp only [validator, Validator.run, missing_eq_lacking, intercalate_eq_empty_iff]
  split <;> rfl

/-- Where labels are required an object passes that is deleted or has all of them, and also one that
lacks nothing but a label with the empty name, if that is required once. Any other is rejected with
a message that lists what it lacks, in the order of the requirement. Nobody is warned, and no chain
is asked to stop. -/
theorem validator_decides (required : List String) (context : Context) (review : Review)
    (object : Object) (state : State σ) :
    ∃ validation, (validator required).run context review object state = ⟨.done validation, state⟩ ∧
      validation.warnings = [] ∧ validation.stop = false ∧
      (validation.valid = true ↔ review.operation = .delete ∨
        (∀ key ∈ required, key ∈ (object.labels.getD ∅).keys) ∨ lacking required object = [""]) ∧
      (validation.valid = true → validation.message = "") ∧
      (validation.valid = false → validation.message =
        "missing required labels: " ++ ", ".intercalate (lacking required object)) := by
  refine ⟨_, run_validator required context review object state, ?_⟩
  rw [← lacking_eq_nil_iff]
  split
  case isTrue passes => exact ⟨rfl, rfl, ⟨fun _ => passes, fun _ => rfl⟩, fun _ => rfl, nofun⟩
  case isFalse fails => exact ⟨rfl, rfl, ⟨nofun, fun passes => absurd passes fails⟩, nofun, fun _ => rfl⟩

def teamed : Object :=
  .generic
    { data := .object ∅
      labels := some ((∅ : SortedMap String).insert "team" "x")
      annotations := none }

/-- An object passes that has one of two required labels, as the other one has the empty name. -/
theorem passes_without_empty_label :
    let review : Review := { (default : Review) with operation := .create }
    review.operation ≠ .delete ∧ "" ∈ ["team", ""] ∧ "" ∉ (teamed.labels.getD ∅).keys ∧
    (validator ["team", ""]).run Reviewer.unhurried review teamed Reviewer.outset =
      ⟨.done {}, Reviewer.outset⟩ ∧ ({} : Validation).valid = true := by
  refine ⟨by decide, by decide, by decide, ?_, rfl⟩
  rw [run_validator, if_pos]
  exact .inr (.inr (by decide))

end Admission.Labels
