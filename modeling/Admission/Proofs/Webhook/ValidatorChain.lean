import Mathlib.Data.List.Basic
import Admission.Proofs.Webhook.ValidatorNesting

/-! The run of a chain of validators, told by the calls it makes: which validators it calls, and what
the chain answers for what they answered. No rejection is lost: a chain accepts an object only if
every validator it called did. -/

set_option autoImplicit false

namespace Admission.Validator

variable {σ : Type}

/-- A validator that a chain calls with the object and the state it is handed. -/
structure Handed (σ : Type) where
  validator : Validator σ
  object : Object
  state : State σ

namespace Handed

variable (context : Context) (review : Review) (handed : Handed σ)

def ran : Run σ :=
  handed.validator.run context review handed.object handed.state

def answer? : Option Validation :=
  match (handed.ran context review).outcome with
  | .done validation => some validation
  | _ => none

def warnings : List String :=
  ((handed.answer? context review).map Validation.warnings).getD []

/-- The leaves that were called: the validator itself, or those of the chain that it is. -/
def leafCalls : List (LeafCall σ) :=
  handed.validator.calls context review handed.object handed.state

def passes : Bool :=
  (handed.answer? context review).any fun validation => validation.valid && !validation.stop

variable {context review handed}

theorem answer?_eq_some {validation : Validation} :
    handed.answer? context review = some validation ↔
      (handed.ran context review).outcome = .done validation := by
  rw [answer?]
  split
  · rename_i answered done
    rw [done, Option.some.injEq, Outcome.done.injEq]
  · rename_i failed
    constructor
    · intro impossible
      cases impossible
    · intro done
      exact absurd done (failed validation)

theorem answer?_eq_none (failed : ∀ validation, (handed.ran context review).outcome ≠ .done validation) :
    handed.answer? context review = none := by
  rw [Option.eq_none_iff_forall_ne_some]
  intro validation answered
  exact failed validation (answer?_eq_some.1 answered)

theorem passes_iff : handed.passes context review = true ↔
    ∃ validation, (handed.ran context review).outcome = .done validation ∧
      validation.valid = true ∧ validation.stop = false := by
  rw [passes, Option.any_eq_true]
  constructor
  · rintro ⟨validation, answered, good⟩
    rw [Bool.and_eq_true, Bool.not_eq_true'] at good
    exact ⟨validation, answer?_eq_some.1 answered, good⟩
  · rintro ⟨validation, done, good⟩
    rw [← Bool.not_eq_true', ← Bool.and_eq_true] at good
    exact ⟨validation, answer?_eq_some.2 done, good⟩

end Handed

/-- Calls one after the other, all on one object. Behind each but the last one the chain goes on: the
validator accepted the object and did not ask to stop. -/
inductive Calls (context : Context) (review : Review) (object : Object) :
    State σ → List (Handed σ) → Prop where
  | none (state : State σ) : Calls context review object state []
  | last (validator : Validator σ) (state : State σ) :
    Calls context review object state [⟨validator, object, state⟩]
  | more {validator : Validator σ} {state : State σ} {calls : List (Handed σ)}
    (passes : Handed.passes context review ⟨validator, object, state⟩ = true)
    (rest : Calls context review object (validator.run context review object state).state calls) :
    Calls context review object state (⟨validator, object, state⟩ :: calls)

def NeverDone (context : Context) (review : Review) (object : Object) (steps : List (Validator σ))
    (state : State σ) : Prop :=
  ∀ calls call, (calls ++ [call]).map Handed.validator <+: steps →
    Calls context review object state (calls ++ [call]) →
    context.isDone call.state.world = false

section

variable {context : Context} {review : Review} {object : Object} {step : Validator σ}
  {steps : List (Validator σ)} {state : State σ} {calls : List (Handed σ)}

theorem NeverDone.head (never : NeverDone context review object (step :: steps) state) :
    context.isDone state.world = false :=
  never [] ⟨step, object, state⟩ (by simp) (.last step state)

theorem NeverDone.tail (never : NeverDone context review object (step :: steps) state)
    (passes : Handed.passes context review ⟨step, object, state⟩ = true) :
    NeverDone context review object steps (step.run context review object state).state := by
  intro calls call before made
  refine never (⟨step, object, state⟩ :: calls) call ?_ (.more passes made)
  simpa using before

/-- A request is never over if it is not over in worlds that every step leads to such worlds. -/
theorem NeverDone.of_invariant {P : World σ → Prop} (start : P state.world)
    (preserved : ∀ step ∈ steps, ∀ state, P state.world →
      P (step.run context review object state).state.world)
    (notDone : ∀ world, P world → context.isDone world = false) :
    NeverDone context review object steps state := by
  intro calls call before made
  -- the calls before the last one each keep the property
  induction calls generalizing steps state with
  | nil =>
    cases made with
    | last => exact notDone _ start
    | more => exact notDone _ start
  | cons first calls ih =>
    obtain ⟨others, rfl⟩ := before
    generalize behind_eq : calls ++ [call] = behind at made
    rw [List.cons_append, behind_eq] at made
    cases made with
    | last => simp at behind_eq
    | more passes rest =>
      subst behind_eq
      refine ih (preserved _ (by simp) _ start) (fun step mem => ?_) (List.prefix_append _ others)
        rest
      exact preserved step (List.mem_cons_of_mem _ mem)

theorem Calls.object_eq (made : Calls context review object state calls) :
    ∀ call ∈ calls, call.object = object := by
  induction made with
  | none state => simp
  | last validator state => simp
  | more passes rest ih =>
    intro call mem
    rcases List.mem_cons.1 mem with rfl | mem
    · rfl
    · exact ih call mem

theorem Calls.passes (made : Calls context review object state calls) :
    ∀ call ∈ calls.dropLast, call.passes context review = true := by
  induction made with
  | none state => simp
  | last validator state => simp
  | more passes rest ih =>
    intro call mem
    cases rest with
    | none => simp at mem
    | _ =>
      rw [List.dropLast_cons_of_ne_nil (List.cons_ne_nil _ _)] at mem
      rcases List.mem_cons.1 mem with rfl | mem
      · exact passes
      · exact ih call mem

end

def logBehind {κ : Type} (earlier : List κ) (world : World (σ × List κ)) : World (σ × List κ) :=
  world.withOwn (world.own.1, earlier ++ world.own.2)

mutual

/-- An earlier log is only added to. -/
theorem effect_logBehind (validator : Validator σ) (context : Context) (review : Review)
    (object : Object) (earlier : List (LeafCall σ)) (world : World (σ × List (LeafCall σ))) :
    validator.logged.effect context review object (logBehind earlier world) =
      (validator.logged.effect context review object world).mapWorld (logBehind earlier) := by
  cases validator with
  | leaf call =>
    simp only [logged, mapLeaves, effect, logging, noting, Effect.mapWorld, logBehind,
      World.unlogged, World.withOwn, List.append_assoc]
  | chain logger steps =>
    rw [logged_chain, effect, effect]
    exact effectSteps_logBehind steps context review object [] earlier world

theorem effectSteps_logBehind (steps : List (Validator σ)) (context : Context) (review : Review)
    (object : Object) (warnings : List String) (earlier : List (LeafCall σ))
    (world : World (σ × List (LeafCall σ))) :
    effectSteps (loggedSteps steps) context review object warnings (logBehind earlier world) =
      (effectSteps (loggedSteps steps) context review object warnings world).mapWorld
        (logBehind earlier) := by
  cases steps with
  | nil => rfl
  | cons step steps =>
    have isDone : context.isDone (logBehind earlier world) = context.isDone world := rfl
    rw [loggedSteps_cons, effectSteps, effectSteps, isDone]
    split
    · rfl
    · rw [effect_logBehind, ← Effect.mapWorld_andThen]
      intro warnings world
      exact (effectSteps_logBehind steps context review object warnings earlier world).symm

end

theorem Handed.effect_logged (context : Context) (review : Review) (handed : Handed σ)
    (log : List (LeafCall σ)) :
    handed.validator.logged.effect context review handed.object
        (handed.state.world.withOwn (handed.state.world.own, log)) =
      ⟨(handed.ran context review).outcome, (handed.ran context review).state.world.withOwn
        ((handed.ran context review).state.world.own,
          log ++ handed.leafCalls context review)⟩ := by
  have start : logBehind log (handed.state.world.withOwn (handed.state.world.own, [])) =
      handed.state.world.withOwn (handed.state.world.own, log) := by
    simp only [logBehind, World.withOwn, List.append_nil]
  have same : (handed.validator.logged.effect context review handed.object
      (handed.state.world.withOwn (handed.state.world.own, []))).unlogged =
        (handed.ran context review).effect :=
    (Validator.effect_logged ..).trans (effect_run ..).symm
  have outcome : _ = (handed.ran context review).outcome := congrArg Effect.outcome same
  have world : _ = (handed.ran context review).state.world := congrArg Effect.world same
  rw [← start, effect_logBehind, leafCalls, calls_eq, ← outcome, ← world]
  rfl

/-! ## What a chain ends with -/

/-- What a chain ends with after its calls, behind others that gave `warnings`: the failure of the
last call, its verdict, or the consent of all. -/
structure Ends (context : Context) (review : Review) (object : Object) (steps : List (Validator σ))
    (warnings : List String) (state : State σ) (calls : List (Handed σ)) (ran : Run σ) : Prop where
  failure : ∀ last ∈ calls.getLast?, last.answer? context review = none →
    ran.outcome = (last.ran context review).outcome
  verdict : ∀ last ∈ calls.getLast?, last.passes context review = false →
    ∀ validation, last.answer? context review = some validation →
      ran.outcome = .done { validation with
        warnings := warnings ++ calls.flatMap (Handed.warnings context review) }
  consent : (∀ last ∈ calls.getLast?, last.passes context review = true) →
    calls.map Handed.validator = steps ∧
      ran.outcome = .done
        { warnings := warnings ++ calls.flatMap (Handed.warnings context review) }
  world : ran.state.world =
    (calls.getLast?.map fun last => (last.ran context review).state.world).getD state.world
  leafCalls : ∀ log, (effectSteps (loggedSteps steps) context review object warnings
      (state.world.withOwn (state.world.own, log))).world.own.2 =
    log ++ calls.flatMap (Handed.leafCalls context review)

section

variable {context : Context} {review : Review} {logger : Logger} {object : Object}
  {step : Validator σ} {steps : List (Validator σ)} {warnings : List String} {state : State σ}

theorem effectSteps_logged_cons (notDone : context.isDone state.world = false)
    (log : List (LeafCall σ)) :
    effectSteps (loggedSteps (step :: steps)) context review object warnings
        (state.world.withOwn (state.world.own, log)) =
      Effect.andThen
        ⟨(step.run context review object state).outcome,
          (step.run context review object state).state.world.withOwn
            ((step.run context review object state).state.world.own,
              log ++ Handed.leafCalls context review ⟨step, object, state⟩)⟩
        warnings fun warnings world =>
          effectSteps (loggedSteps steps) context review object warnings world := by
  have call := Handed.effect_logged context review ⟨step, object, state⟩ log
  have isDone : context.isDone (state.world.withOwn (state.world.own, log)) = false :=
    notDone
  rw [loggedSteps_cons, effectSteps, if_neg (by simp [isDone])]
  exact congrArg (fun effect : Effect _ => effect.andThen warnings _) call

theorem ends_of_failure (notDone : context.isDone state.world = false)
    (failed : ∀ validation, (step.run context review object state).outcome ≠ .done validation) :
    Ends context review object (step :: steps) warnings state [⟨step, object, state⟩]
      (runSteps logger (step :: steps) context review object warnings state) := by
  have answer : Handed.answer? context review ⟨step, object, state⟩ = none :=
    Handed.answer?_eq_none failed
  have passes : Handed.passes context review ⟨step, object, state⟩ = false := by
    rw [Handed.passes, answer]
    rfl
  rw [runSteps_of_failure notDone rfl failed]
  constructor
  · intro last mem _
    cases List.mem_singleton.1 (List.mem_of_getLast? mem)
    rfl
  · intro last mem _ validation answered
    cases List.mem_singleton.1 (List.mem_of_getLast? mem)
    cases answer.symm.trans answered
  · intro consent
    cases passes.symm.trans (consent _ rfl)
  · rfl
  · intro log
    rw [effectSteps_logged_cons notDone, Effect.andThen_of_failure _ failed, List.flatMap_singleton]
    rfl

theorem ends_of_end {validation : Validation} (notDone : context.isDone state.world = false)
    (done : (step.run context review object state).outcome = .done validation)
    (ends : validation.ends = true) :
    Ends context review object (step :: steps) warnings state [⟨step, object, state⟩]
      (runSteps logger (step :: steps) context review object warnings state) := by
  have answer : Handed.answer? context review ⟨step, object, state⟩ = some validation :=
    Handed.answer?_eq_some.2 done
  have passes : Handed.passes context review ⟨step, object, state⟩ = false := by
    rw [Validation.ends] at ends
    rw [Handed.passes, answer, Option.any_some]
    revert ends
    cases validation.valid <;> cases validation.stop <;> simp
  rw [runSteps_of_end notDone rfl done ends]
  constructor
  · intro last mem none
    cases List.mem_singleton.1 (List.mem_of_getLast? mem)
    cases answer.symm.trans none
  · intro last mem _ other answered
    cases List.mem_singleton.1 (List.mem_of_getLast? mem)
    cases answer.symm.trans answered
    simp only [Validation.behind, List.flatMap_singleton, Handed.warnings, answer, Option.map_some,
      Option.getD_some]
  · intro consent
    cases passes.symm.trans (consent _ rfl)
  · rfl
  · intro log
    rw [effectSteps_logged_cons notDone, Effect.andThen_of_end _ done ends, List.flatMap_singleton]
    rfl

theorem mem_getLast?_cons {call last : Handed σ} {calls : List (Handed σ)}
    (mem : last ∈ calls.getLast?) : last ∈ (call :: calls).getLast? := by
  rw [List.getLast?_cons, Option.mem_def.1 mem]
  rfl

theorem of_mem_getLast?_cons {call last : Handed σ} {calls : List (Handed σ)}
    (mem : last ∈ (call :: calls).getLast?) : last = call ∨ last ∈ calls.getLast? := by
  rw [List.getLast?_cons] at mem
  cases behind : calls.getLast? with
  | none =>
    rw [behind] at mem
    exact .inl (Option.some.inj mem).symm
  | some other =>
    rw [behind] at mem
    exact .inr mem

/-- A call that lets the chain go on is one more call in front of those behind it. -/
theorem ends_of_rest {calls : List (Handed σ)} {ran : Run σ}
    (notDone : context.isDone state.world = false)
    (passes : Handed.passes context review ⟨step, object, state⟩ = true)
    (rest : Ends context review object steps
      (warnings ++ Handed.warnings context review ⟨step, object, state⟩)
      (step.run context review object state).state calls ran) :
    Ends context review object (step :: steps) warnings state (⟨step, object, state⟩ :: calls)
      ran := by
  -- a call that goes on decides nothing, so the last call behind it ends the chain, with its warnings in
  -- front
  obtain ⟨validation, done, valid, goesOn⟩ := Handed.passes_iff.1 passes
  have ends : validation.ends = false := by rw [Validation.ends, valid, goesOn]; rfl
  have answer : Handed.answer? context review ⟨step, object, state⟩ = some validation :=
    Handed.answer?_eq_some.2 done
  constructor
  · intro last mem none
    rcases of_mem_getLast?_cons mem with rfl | mem
    · cases answer.symm.trans none
    · exact rest.failure last mem none
  · intro last mem rejects other answered
    rcases of_mem_getLast?_cons mem with rfl | mem
    · cases rejects.symm.trans passes
    · rw [rest.verdict last mem rejects other answered, List.flatMap_cons, List.append_assoc]
  · intro consent
    obtain ⟨all, outcome⟩ := rest.consent fun last mem => consent last (mem_getLast?_cons mem)
    rw [List.map_cons, all, outcome, List.flatMap_cons, List.append_assoc]
    exact ⟨rfl, rfl⟩
  · rw [rest.world, List.getLast?_cons]
    cases calls.getLast? <;> rfl
  · intro log
    have warnings_eq : Handed.warnings context review ⟨step, object, state⟩ =
        validation.warnings := by
      rw [Handed.warnings, answer]
      rfl
    rw [effectSteps_logged_cons notDone, Effect.andThen_of_done _ done ends, ← warnings_eq,
      rest.leafCalls, List.flatMap_cons, List.append_assoc]

end

theorem runSteps_calls (logger : Logger) {context : Context} {review : Review} {object : Object}
    {steps : List (Validator σ)} (warnings : List String) {state : State σ}
    (neverDone : NeverDone context review object steps state) :
    ∃ calls : List (Handed σ), calls.map Handed.validator <+: steps ∧
      Calls context review object state calls ∧
      Ends context review object steps warnings state calls
        (runSteps logger steps context review object warnings state) := by
  -- the steps before these ones gave `warnings`; each turn of the loop adds one call in front
  induction steps generalizing warnings state with
  | nil =>
    refine ⟨[], List.prefix_refl _, .none state, ?_⟩
    rw [runSteps]
    constructor <;> simp [loggedSteps, mapLeavesOf, effectSteps, World.withOwn]
  | cons step steps ih =>
    have notDone := neverDone.head
    have single : [(⟨step, object, state⟩ : Handed σ)].map Handed.validator <+: step :: steps :=
      ⟨steps, rfl⟩
    by_cases answered :
        ∃ validation, (step.run context review object state).outcome = .done validation
    · obtain ⟨validation, done⟩ := answered
      cases ends : validation.ends with
      | true => exact ⟨_, single, .last step state, ends_of_end notDone done ends⟩
      | false =>
        have passes : Handed.passes context review ⟨step, object, state⟩ = true := by
          rw [Validation.ends, Bool.or_eq_false_iff, Bool.not_eq_false'] at ends
          exact Handed.passes_iff.2 ⟨validation, done, ends.2, ends.1⟩
        have warnings_eq : Handed.warnings context review ⟨step, object, state⟩ =
            validation.warnings := by
          rw [Handed.warnings, show Handed.answer? context review ⟨step, object, state⟩ =
            some validation from Handed.answer?_eq_some.2 done]
          rfl
        obtain ⟨calls, before, made, rest⟩ := ih _ (neverDone.tail passes)
        rw [runSteps_of_done notDone rfl done ends, ← warnings_eq]
        exact ⟨⟨step, object, state⟩ :: calls, (List.prefix_cons_inj step).2 before,
          .more passes made, ends_of_rest notDone passes rest⟩
    · exact ⟨_, single, .last step state, ends_of_failure notDone (not_exists.1 answered)⟩

/-- A chain whose request is never over calls its validators in order, each once and all on the
object it was handed, up to one that fails, rejects the object or asks to stop, or all of them. It
ends with the failure of the last one, with the verdict of the last one and the warnings of all, or
with the consent of all. So it accepts the object only if every validator that it called did. -/
theorem chain_answer (logger : Logger) {context : Context} {review : Review} {object : Object}
    {steps : List (Validator σ)} {state : State σ}
    (neverDone : NeverDone context review object steps state) :
    ∃ calls : List (Handed σ), calls.map Handed.validator <+: steps ∧
      Calls context review object state calls ∧
      (∀ call ∈ calls, call.object = object) ∧
      (∀ call ∈ calls.dropLast, ∃ validation, (call.ran context review).outcome = .done validation ∧
        validation.valid = true ∧ validation.stop = false) ∧
      (chain logger steps).calls context review object state =
        calls.flatMap (Handed.leafCalls context review) ∧
      let ran := (chain logger steps).run context review object state
      let warnings := calls.flatMap (Handed.warnings context review)
      (∀ last ∈ calls.getLast?,
        (∀ validation, (last.ran context review).outcome ≠ .done validation) →
        ran.outcome = (last.ran context review).outcome) ∧
      (∀ last ∈ calls.getLast?, ∀ validation, (last.ran context review).outcome = .done validation →
        validation.valid = false ∨ validation.stop = true →
        ran.outcome = .done ⟨validation.valid, validation.message, warnings, validation.stop⟩) ∧
      ((∀ last ∈ calls.getLast?, ∃ validation,
          (last.ran context review).outcome = .done validation ∧ validation.valid = true ∧
            validation.stop = false) →
        calls.map Handed.validator = steps ∧ ran.outcome = .done ⟨true, "", warnings, false⟩) ∧
      (∀ result, ran.outcome = .done result → result.valid = true → ∀ call ∈ calls, ∃ validation,
        (call.ran context review).outcome = .done validation ∧ validation.valid = true) ∧
      ran.state.world =
        (calls.getLast?.map fun last => (last.ran context review).state.world).getD state.world := by
  obtain ⟨calls, before, made, ends⟩ := runSteps_calls (chainLogger logger) [] neverDone
  rw [← run] at ends
  have failure : ∀ last ∈ calls.getLast?,
      (∀ validation, (last.ran context review).outcome ≠ .done validation) →
      ((chain logger steps).run context review object state).outcome =
        (last.ran context review).outcome :=
    fun last mem failed => ends.failure last mem (Handed.answer?_eq_none failed)
  have verdict : ∀ last ∈ calls.getLast?, ∀ validation,
      (last.ran context review).outcome = .done validation →
      validation.valid = false ∨ validation.stop = true →
      ((chain logger steps).run context review object state).outcome =
        .done ⟨validation.valid, validation.message, calls.flatMap (Handed.warnings context review),
          validation.stop⟩ := by
    intro last mem validation done rejects
    refine ends.verdict last mem ?_ validation (Handed.answer?_eq_some.2 done)
    rw [Bool.eq_false_iff]
    intro passes
    obtain ⟨other, other_done, valid, goesOn⟩ := Handed.passes_iff.1 passes
    cases done.symm.trans other_done
    rw [valid, goesOn] at rejects
    simp at rejects
  refine ⟨calls, before, made, made.object_eq,
    fun call mem => Handed.passes_iff.1 (made.passes call mem), ?_, failure, verdict, ?_, ?_,
    ends.world⟩
  · rw [calls_eq, logged_chain, effect]
    exact ends.leafCalls []
  · intro consent
    exact ends.consent fun last mem => Handed.passes_iff.2 (consent last mem)
  · intro result outcome valid call mem
    -- a call is one of those behind which the chain went on, or the last one
    obtain ⟨last, last_eq⟩ : ∃ last, calls.getLast? = some last :=
      Option.isSome_iff_exists.1 (List.getLast?_isSome.2 (List.ne_nil_of_mem mem))
    rw [← List.dropLast_append_getLast? last last_eq, List.mem_append, List.mem_singleton] at mem
    rcases mem with mem | rfl
    · obtain ⟨validation, done, good, -⟩ := Handed.passes_iff.1 (made.passes call mem)
      exact ⟨validation, done, good⟩
    · by_cases answered : ∃ validation, (call.ran context review).outcome = .done validation
      · obtain ⟨validation, done⟩ := answered
        refine ⟨validation, done, ?_⟩
        by_contra invalid
        rw [verdict call last_eq validation done (.inl (Bool.not_eq_true _ ▸ invalid))] at outcome
        cases outcome
        exact invalid valid
      · rw [failure call last_eq (not_exists.1 answered)] at outcome
        exact absurd ⟨result, outcome⟩ answered

def answering (validation : Validation) : Validator Unit :=
  .leaf fun _ _ _ world => ⟨.done validation, world⟩

/-- The chain ends with the second of three validators, which rejects every object. -/
theorem chain_answer_rejected :
    let context : Context := { signal := ⟨0, none⟩ }
    let object : Object := .generic (.ofTree (.object ∅))
    let state : State Unit := ⟨⟨0, 1, [], ()⟩, {}⟩
    let steps := [answering { warnings := ["old"] },
      answering { valid := false, message := "no owner", warnings := ["lost"] }, answering {}]
    ∃ calls : List (Handed Unit), calls.map Handed.validator <+: steps ∧
      (∀ call ∈ calls, call.object = object) ∧
      (calls.flatMap (Handed.leafCalls context default)).length = 2 ∧
      calls.flatMap (Handed.warnings context default) = ["old", "lost"] ∧
      ((chain .silent steps).run context default object state).outcome =
        .done ⟨false, "no owner", ["old", "lost"], false⟩ := by
  intro context object state steps
  have neverDone : NeverDone context default object steps state := by
    refine .of_invariant (P := fun world => world.cancelled = []) rfl ?_ ?_
    · intro step mem state untouched
      rcases List.mem_cons.1 mem with rfl | mem
      · exact untouched
      · rcases List.mem_cons.1 mem with rfl | mem
        · exact untouched
        · rw [List.mem_singleton.1 mem]
          exact untouched
    · intro world untouched
      rw [Context.isDone, Signal.isDone, untouched]
      rfl
  obtain ⟨calls, before, -, same, -, leaves, failure, verdict, consent, -, -⟩ :=
    chain_answer .silent neverDone
  have outcome : ((chain .silent steps).run context default object state).outcome =
      .done ⟨false, "no owner", ["old", "lost"], false⟩ := rfl
  refine ⟨calls, before, same, ?_, ?_, outcome⟩
  · rw [← leaves]
    rfl
  · -- the last call did not consent, for the chain rejects the object
    have rejects : ¬ ∀ last ∈ calls.getLast?, ∃ validation,
        (last.ran context default).outcome = .done validation ∧ validation.valid = true ∧
          validation.stop = false := by
      intro consents
      cases outcome.symm.trans (consent consents).2
    push Not at rejects
    obtain ⟨last, mem, rejects⟩ := rejects
    have answered : ∃ validation, (last.ran context default).outcome = .done validation := by
      by_contra failed
      exact failed ⟨_, (failure last mem (not_exists.1 failed)).symm.trans outcome⟩
    obtain ⟨validation, done⟩ := answered
    have ends : validation.valid = false ∨ validation.stop = true := by
      cases valid : validation.valid with
      | false => exact .inl rfl
      | true => exact .inr (eq_true_of_ne_false (rejects validation done valid))
    have told := outcome.symm.trans (verdict last mem validation done ends)
    rw [Outcome.done.injEq, Validation.mk.injEq] at told
    exact told.2.2.1.symm

end Admission.Validator
