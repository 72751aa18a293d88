import Admission.Webhook.Mutator

/-! The run of a chain of mutators, told by the calls it makes: which mutators it calls, what each
of them is handed, and what becomes of what they did. -/

set_option autoImplicit false

namespace Admission

/-- What was done so far and then by one more step, which left the object it was handed as `left`. -/
def Mutation.add (sofar : Mutation) (left : Object) (mutation : Mutation) : Mutation where
  replacement := mutation.replacement.or (sofar.replacement.map fun _ => left)
  warnings := sofar.warnings ++ mutation.warnings
  stop := mutation.stop

def Mutation.kept (sofar : Mutation) (object left : Object) : Object :=
  if sofar.replacement.isSome then object else left

theorem Mutation.current_add (sofar : Mutation) (object left : Object) (mutation : Mutation) :
    (sofar.add left mutation).replacement.getD (sofar.kept object left) =
      mutation.replacement.getD left := by
  simp only [add, kept]
  cases mutation.replacement <;> cases sofar.replacement <;> rfl

namespace Mutator

variable {σ : Type}

section

variable {logger : Logger} {context : Context} {review : Review} {step : Mutator σ}
  {steps : List (Mutator σ)} {object : Object} {sofar : Mutation} {state : State σ} {ran : Run σ}

theorem runSteps_of_isDone (isDone : context.isDone state.world = true) :
    runSteps logger (step :: steps) context review object sofar state =
      ⟨.failed (.cancelled .mutating), object, state⟩ := by
  rw [runSteps, if_pos isDone]

theorem runSteps_of_failure (notDone : context.isDone state.world = false)
    (ran_eq : step.run context review (sofar.replacement.getD object) state = ran)
    (failed : ∀ mutation, ran.outcome ≠ .done mutation) :
    runSteps logger (step :: steps) context review object sofar state =
      ⟨ran.outcome, sofar.kept object ran.object, ran.state⟩ := by
  rw [runSteps, if_neg (by simp [notDone]), ran_eq]
  cases ended : ran.outcome with
  | failed failure => simp [ended, Mutation.kept]
  | panicked message => simp [ended, Mutation.kept]
  | done mutation => exact absurd ended (failed mutation)

theorem runSteps_of_stop {mutation : Mutation} (notDone : context.isDone state.world = false)
    (ran_eq : step.run context review (sofar.replacement.getD object) state = ran)
    (done : ran.outcome = .done mutation) (stop : mutation.stop = true) :
    runSteps logger (step :: steps) context review object sofar state =
      ⟨.done (sofar.add ran.object mutation), sofar.kept object ran.object,
        logger.report context .debug "chain stopped by a mutator" ran.state⟩ := by
  rw [runSteps, if_neg (by simp [notDone]), ran_eq]
  simp [done, stop, Mutation.add, Mutation.kept]

theorem runSteps_of_done {mutation : Mutation} (notDone : context.isDone state.world = false)
    (ran_eq : step.run context review (sofar.replacement.getD object) state = ran)
    (done : ran.outcome = .done mutation) (goesOn : mutation.stop = false) :
    runSteps logger (step :: steps) context review object sofar state =
      runSteps logger steps context review (sofar.kept object ran.object)
        (sofar.add ran.object mutation) ran.state := by
  rw [runSteps, if_neg (by simp [notDone]), ran_eq]
  simp [done, goesOn, Mutation.add, Mutation.kept]

end

/-- The object that a run ends with: the replacement that the mutation made, or else the object
that was handed over, as it was left. -/
def Run.final (ran : Run σ) (mutation : Mutation) : Object :=
  mutation.replacement.getD ran.object

/-- A mutator that a chain calls with the object and the state it is handed. -/
structure Handed (σ : Type) where
  mutator : Mutator σ
  object : Object
  state : State σ

namespace Handed

variable (context : Context) (review : Review) (handed : Handed σ)

def ran : Run σ :=
  handed.mutator.run context review handed.object handed.state

def mutation? : Option Mutation :=
  match (handed.ran context review).outcome with
  | .done mutation => some mutation
  | _ => none

def replacement? : Option Object :=
  (handed.mutation? context review).bind Mutation.replacement

def product : Object :=
  (handed.replacement? context review).getD (handed.ran context review).object

def replaces : Bool :=
  (handed.replacement? context review).isSome

def stops : Bool :=
  (handed.mutation? context review).any Mutation.stop

def warnings : List String :=
  ((handed.mutation? context review).map Mutation.warnings).getD []

variable {context review handed}

theorem mutation?_of_done {mutation : Mutation}
    (done : (handed.ran context review).outcome = .done mutation) :
    handed.mutation? context review = some mutation := by
  rw [mutation?, done]

theorem mutation?_of_failure
    (failed : ∀ mutation, (handed.ran context review).outcome ≠ .done mutation) :
    handed.mutation? context review = none := by
  rw [mutation?]
  split
  · rename_i mutation done
    exact absurd done (failed mutation)
  · rfl

end Handed

def lastOf {α : Type} (f : Handed σ → α) (start : α) (calls : List (Handed σ)) : α :=
  (calls.getLast?.map f).getD start

@[simp]
theorem lastOf_nil {α : Type} (f : Handed σ → α) (start : α) : lastOf f start [] = start :=
  rfl

@[simp]
theorem lastOf_cons {α : Type} (f : Handed σ → α) (start : α) (call : Handed σ)
    (calls : List (Handed σ)) : lastOf f start (call :: calls) = lastOf f (f call) calls := by
  rw [lastOf, List.getLast?_cons, lastOf]
  cases calls.getLast? <;> rfl

/-- Calls one after the other. Behind each but the last one the chain goes on: the mutator neither
failed nor asked to stop, and the next one is handed what it produced. -/
inductive Calls (context : Context) (review : Review) :
    Object → State σ → List (Handed σ) → Prop where
  | none (object : Object) (state : State σ) : Calls context review object state []
  | last (mutator : Mutator σ) (object : Object) (state : State σ) :
    Calls context review object state [⟨mutator, object, state⟩]
  | more {mutator : Mutator σ} {object : Object} {state : State σ} {mutation : Mutation}
    {calls : List (Handed σ)}
    (done : (mutator.run context review object state).outcome = .done mutation)
    (goesOn : mutation.stop = false)
    (rest : Calls context review ((mutator.run context review object state).final mutation)
      (mutator.run context review object state).state calls) :
    Calls context review object state (⟨mutator, object, state⟩ :: calls)

def NeverDone (context : Context) (review : Review) (steps : List (Mutator σ)) (object : Object)
    (state : State σ) : Prop :=
  ∀ calls call, (calls ++ [call]).map Handed.mutator <+: steps →
    Calls context review object state (calls ++ [call]) →
    context.isDone call.state.world = false

namespace NeverDone

variable {context : Context} {review : Review} {step : Mutator σ} {steps : List (Mutator σ)}
  {object : Object} {state : State σ}

theorem head (never : NeverDone context review (step :: steps) object state) :
    context.isDone state.world = false :=
  never [] ⟨step, object, state⟩ (by simp) (.last step object state)

theorem tail {mutation : Mutation} (never : NeverDone context review (step :: steps) object state)
    (done : (step.run context review object state).outcome = .done mutation)
    (goesOn : mutation.stop = false) :
    NeverDone context review steps ((step.run context review object state).final mutation)
      (step.run context review object state).state := by
  intro calls call before made
  refine never (⟨step, object, state⟩ :: calls) call ?_ (.more done goesOn made)
  simpa using before

/-- A request is never over if it is not over in worlds that every step leads to such worlds. -/
theorem of_invariant {P : World σ → Prop} (start : P state.world)
    (preserved : ∀ step ∈ steps, ∀ object state, P state.world →
      P (step.run context review object state).state.world)
    (notDone : ∀ world, P world → context.isDone world = false) :
    NeverDone context review steps object state := by
  intro calls call before made
  -- the calls before the last one each keep the property
  induction calls generalizing steps object state with
  | nil =>
    cases made with
    | last => exact notDone _ start
    | more => exact notDone _ start
  | cons first calls ih =>
    obtain ⟨others, rfl⟩ := before
    generalize behind_eq : calls ++ [call] = behind at made
    rw [List.cons_append, behind_eq] at made
    cases made with
    | last => simp at behind_eq
    | more done goesOn rest =>
      subst behind_eq
      refine ih (preserved _ (by simp) _ _ start) (fun step mem => ?_) (List.prefix_append _ others) rest
      exact preserved step (List.mem_cons_of_mem _ mem)

end NeverDone

/-- What a chain ends with after its calls, of which the first was handed the replacement of `sofar`
or else `object`: the failure of the last call, or a mutation that adds up what was done. -/
structure Ends (context : Context) (review : Review) (logger : Logger) (steps : List (Mutator σ))
    (object : Object) (sofar : Mutation) (state : State σ) (calls : List (Handed σ))
    (ran : Run σ) : Prop where
  failure : ∀ last ∈ calls.getLast?, last.mutation? context review = none →
    ran.outcome = (last.ran context review).outcome
  success : lastOf (fun last => (last.mutation? context review).isSome) true calls = true →
    ∃ result, ran.outcome = .done result ∧
      (calls.length < steps.length → lastOf (Handed.stops context review) false calls = true) ∧
      ran.final result =
        lastOf (Handed.product context review) (sofar.replacement.getD object) calls ∧
      result.warnings = sofar.warnings ++ calls.flatMap (Handed.warnings context review) ∧
      result.stop = lastOf (Handed.stops context review) false calls ∧
      result.replacement.isSome =
        (sofar.replacement.isSome || calls.any (Handed.replaces context review))
  object : ran.object =
    if sofar.replacement.isSome then object
    else (calls.find? (Handed.replaces context review)).elim
      (lastOf (fun last => (last.ran context review).object) object calls)
      (fun first => (first.ran context review).object)
  state : ran.state =
    let left := lastOf (fun last => (last.ran context review).state) state calls
    if lastOf (Handed.stops context review) false calls then
      logger.report context .debug "chain stopped by a mutator" left
    else left

section

variable {context : Context} {review : Review} {logger : Logger} {steps : List (Mutator σ)}
  {object : Object} {sofar : Mutation} {state : State σ} {call : Handed σ}

theorem ends_of_failure (failed : call.mutation? context review = none) :
    Ends context review logger steps object sofar state [call]
      ⟨(call.ran context review).outcome, sofar.kept object (call.ran context review).object,
        (call.ran context review).state⟩ := by
  constructor <;> simp [failed, Mutation.kept, Handed.replaces, Handed.replacement?, Handed.stops]

theorem isSome_add {mutation : Mutation} (done : call.mutation? context review = some mutation)
    (left : Object) : (sofar.add left mutation).replacement.isSome =
      (sofar.replacement.isSome || call.replaces context review) := by
  simp [Mutation.add, Handed.replaces, Handed.replacement?, done, Bool.or_comm]

theorem ends_of_stop {mutation : Mutation}
    (done : call.mutation? context review = some mutation) (stop : mutation.stop = true) :
    Ends context review logger steps object sofar state [call]
      ⟨.done (sofar.add (call.ran context review).object mutation),
        sofar.kept object (call.ran context review).object,
        logger.report context .debug "chain stopped by a mutator"
          (call.ran context review).state⟩ := by
  constructor
  · simp [done]
  · intro
    refine ⟨_, rfl, ?_, ?_, ?_, ?_, ?_⟩
    · simp [Handed.stops, done, stop]
    · simp [Handed.product, Handed.replacement?, done, Run.final, Mutation.current_add]
    · simp [Mutation.add, Handed.warnings, done]
    · simp [Mutation.add, Handed.stops, done]
    · simp [isSome_add done]
  · cases replaces : call.replaces context review <;> simp [Mutation.kept, replaces]
  · simp [Handed.stops, done, stop]

theorem ends_of_rest {step : Mutator σ} {mutation : Mutation} {calls : List (Handed σ)} {ran : Run σ}
    (done : call.mutation? context review = some mutation) (goesOn : mutation.stop = false)
    (rest : Ends context review logger steps (sofar.kept object (call.ran context review).object)
      (sofar.add (call.ran context review).object mutation) (call.ran context review).state calls
      ran) :
    Ends context review logger (step :: steps) object sofar state (call :: calls) ran := by
  have stops : call.stops context review = mutation.stop := by simp [Handed.stops, done]
  constructor
  · intro last mem failed
    -- this call did not fail, so a last one that did is among the rest
    rw [List.getLast?_cons] at mem
    cases behind : calls.getLast? with
    | none =>
      simp only [behind, Option.getD_none, Option.mem_def, Option.some.injEq] at mem
      rw [← mem, done] at failed
      cases failed
    | some last' =>
      simp only [behind, Option.getD_some, Option.mem_def, Option.some.injEq] at mem
      exact rest.failure last (behind.trans (congrArg some mem)) failed
  · intro succeeded
    rw [lastOf_cons, done] at succeeded
    obtain ⟨result, outcome, before, final, warnings, stop, replacement⟩ := rest.success succeeded
    refine ⟨result, outcome, ?_, ?_, ?_, ?_, ?_⟩
    · intro less
      rw [lastOf_cons, stops, goesOn]
      exact before (by simpa using less)
    · rw [final, lastOf_cons, Mutation.current_add]
      simp [Handed.product, Handed.replacement?, done]
    · rw [warnings]
      simp [Mutation.add, Handed.warnings, done]
    · rw [stop, lastOf_cons, stops, goesOn]
    · rw [replacement, isSome_add done, List.any_cons, Bool.or_assoc]
  · rw [rest.object, isSome_add done]
    cases before : sofar.replacement.isSome <;>
      cases replaces : call.replaces context review <;>
        simp [Mutation.kept, before, replaces]
  · rw [rest.state, lastOf_cons, lastOf_cons, stops, goesOn]

end

theorem runSteps_calls (logger : Logger) {steps : List (Mutator σ)} {context : Context}
    {review : Review} {object : Object} {sofar : Mutation} {state : State σ}
    (goesOn : sofar.stop = false)
    (neverDone : NeverDone context review steps (sofar.replacement.getD object) state) :
    ∃ calls : List (Handed σ), calls.map Handed.mutator <+: steps ∧
      Calls context review (sofar.replacement.getD object) state calls ∧
      Ends context review logger steps object sofar state calls
        (runSteps logger steps context review object sofar state) := by
  -- the steps before these ones did `sofar`; each turn of the loop adds one call in front
  induction steps generalizing object sofar state with
  | nil =>
    refine ⟨[], List.prefix_refl _, .none _ _, ?_⟩
    rw [runSteps]
    constructor <;> simp [goesOn, Run.final]
  | cons step steps ih =>
    have notDone := neverDone.head
    have ran_eq : step.run context review (sofar.replacement.getD object) state =
      Handed.ran context review ⟨step, sofar.replacement.getD object, state⟩ := rfl
    have single : [(⟨step, sofar.replacement.getD object, state⟩ : Handed σ)].map Handed.mutator <+:
      step :: steps := ⟨steps, rfl⟩
    have made : Calls context review (sofar.replacement.getD object) state
      [⟨step, sofar.replacement.getD object, state⟩] := .last step _ _
    by_cases succeeded : ∃ mutation,
      (step.run context review (sofar.replacement.getD object) state).outcome = .done mutation
    · obtain ⟨mutation, done⟩ := succeeded
      have call_done : Handed.mutation? context review
          ⟨step, sofar.replacement.getD object, state⟩ = some mutation :=
        Handed.mutation?_of_done done
      cases stop : mutation.stop with
      | true =>
        rw [runSteps_of_stop notDone ran_eq done stop]
        exact ⟨_, single, made, ends_of_stop call_done stop⟩
      | false =>
        have rest := neverDone.tail done stop
        rw [runSteps_of_done notDone ran_eq done stop]
        rw [Run.final, ← Mutation.current_add sofar object] at rest
        obtain ⟨calls, before, made, ends⟩ := @ih _ (sofar.add _ mutation) _ stop rest
        refine ⟨_ :: calls, ?_, .more done stop ?_, ends_of_rest call_done stop ends⟩
        · exact (List.prefix_cons_inj step).2 before
        · rw [Run.final, ← Mutation.current_add sofar object]
          exact made
    · have failed := not_exists.1 succeeded
      rw [runSteps_of_failure notDone ran_eq failed]
      exact ⟨_, single, made, ends_of_failure (Handed.mutation?_of_failure failed)⟩

/-- A chain whose request is never over calls its mutators in order, each once, up to one that fails
or asks to stop, or all of them. What it ends with is told by these calls: the failure of the last
one, or else the object that the last one produced with the warnings of all of them. The object that
the chain itself was handed is touched by none behind the first that replaced it. -/
theorem chain_calls (logger : Logger) {steps : List (Mutator σ)} {context : Context}
    {review : Review} {object : Object} {state : State σ}
    (neverDone : NeverDone context review steps object state) :
    ∃ calls : List (Handed σ), calls.map Handed.mutator <+: steps ∧
      Calls context review object state calls ∧
      let ran := (chain logger steps).run context review object state
      let stopped := lastOf (Handed.stops context review) false calls
      let left := lastOf (fun last => (last.ran context review).state) state calls
      (∀ last ∈ calls.getLast?, last.mutation? context review = none →
        ran.outcome = (last.ran context review).outcome) ∧
      ((∀ last ∈ calls.getLast?, last.mutation? context review ≠ none) →
        ∃ result, ran.outcome = .done result ∧
          (calls.length < steps.length → stopped = true) ∧
          ran.final result = lastOf (Handed.product context review) object calls ∧
          result.warnings = calls.flatMap (Handed.warnings context review) ∧
          result.stop = stopped ∧
          (result.replacement.isSome = true ↔
            ∃ call ∈ calls, call.replaces context review = true)) ∧
      (∀ first, calls.find? (Handed.replaces context review) = some first →
        ran.object = (first.ran context review).object) ∧
      ran.state = if stopped then
        (chainLogger logger).report context .debug "chain stopped by a mutator" left else left := by
  have goesOn : ({} : Mutation).stop = false := rfl
  obtain ⟨calls, before, made, ends⟩ := runSteps_calls (chainLogger logger) goesOn neverDone
  refine ⟨calls, before, made, ?_⟩
  rw [← run] at ends
  refine ⟨ends.failure, fun succeeded => ?_, fun first found => ?_, ends.state⟩
  -- without a call nothing failed
  · have last_succeeded :
        lastOf (fun last => (last.mutation? context review).isSome) true calls = true := by
      rw [lastOf]
      cases last : calls.getLast? with
      | none => rfl
      | some call => exact Option.isSome_iff_ne_none.2 (succeeded call last)
    obtain ⟨result, outcome, all, final, warnings, stop, replacement⟩ :=
      ends.success last_succeeded
    refine ⟨result, outcome, all, final, warnings, stop, ?_⟩
    rw [replacement]
    simp
  · have object_eq := ends.object
    rw [found] at object_eq
    exact object_eq

/-- A mutator that returns a copy of the object under the name `b`. -/
def renamed : Mutator Unit :=
  .leaf fun _ _ object world =>
    ⟨.done { replacement := some (object.setName "b"), warnings := ["renamed"] }, object, world, []⟩

/-- A mutator that names the object `c` and asks to stop. -/
def lastNamed : Mutator Unit :=
  .leaf fun _ _ object world =>
    ⟨.done { warnings := ["named"], stop := true }, object.setName "c", world, []⟩

/-- The mutator behind the one that asks to stop is not called. -/
theorem chain_calls_renamed : ∃ calls : List (Handed Unit),
    calls.map Handed.mutator <+: [renamed, lastNamed, renamed] ∧
    calls.flatMap (Handed.warnings { signal := ⟨0, none⟩ } default) = ["renamed", "named"] ∧
    (∃ call ∈ calls, call.replaces { signal := ⟨0, none⟩ } default = true) ∧
    lastOf (Handed.stops { signal := ⟨0, none⟩ } default) false calls = true := by
  let object : Object := .generic (.ofTree (.object ∅))
  let state : State Unit := ⟨⟨0, 1, [], ()⟩, {}⟩
  have neverDone : NeverDone { signal := ⟨0, none⟩ } default [renamed, lastNamed, renamed] object
      state := by
    refine .of_invariant (P := fun world => world.cancelled = []) rfl ?_ ?_
    · intro step mem object state untouched
      rcases List.mem_cons.1 mem with rfl | mem
      · exact untouched
      · rcases List.mem_cons.1 mem with rfl | mem
        · exact untouched
        · rw [List.mem_singleton.1 mem]
          exact untouched
    · intro world untouched
      simp [Context.isDone, Signal.isDone, untouched]
  obtain ⟨calls, before, made, failure, success, -, -⟩ := chain_calls .silent neverDone
  have succeeded : ∀ last ∈ calls.getLast?,
      last.mutation? { signal := ⟨0, none⟩ } default ≠ none := by
    intro last mem failed
    have same := failure last mem failed
    rw [Handed.mutation?, ← same] at failed
    cases failed
  obtain ⟨result, outcome, -, -, warnings, stop, replacement⟩ := success succeeded
  cases outcome
  exact ⟨calls, before, warnings.symm, replacement.1 rfl, stop.symm⟩

end Mutator

end Admission
