import Admission.Proofs.Webhook.MutatorNesting
import Admission.Webhook.Validator

/-! Chains of validators inside chains. What a nest of chains finds and does to the world is what
the chain of its leaves does; only the log tells them apart. -/

set_option autoImplicit false

namespace Admission

def Validation.ends (validation : Validation) : Bool :=
  validation.stop || !validation.valid

def Validation.behind (validation : Validation) (warnings : List String) : Validation :=
  { validation with warnings := warnings ++ validation.warnings }

theorem Validation.behind_behind (validation : Validation) (outer inner : List String) :
    (validation.behind inner).behind outer = validation.behind (outer ++ inner) := by
  simp [behind]

namespace Validator

variable {σ τ : Type}

section

variable {logger : Logger} {context : Context} {review : Review} {step : Validator σ}
  {steps : List (Validator σ)} {object : Object} {warnings : List String} {state : State σ}
  {ran : Run σ} {validation : Validation}

theorem runSteps_of_isDone (isDone : context.isDone state.world = true) :
    runSteps logger (step :: steps) context review object warnings state =
      ⟨.failed (.cancelled .validating), state⟩ := by
  rw [runSteps, if_pos isDone]

theorem runSteps_of_failure (notDone : context.isDone state.world = false)
    (ran_eq : step.run context review object state = ran)
    (failed : ∀ validation, ran.outcome ≠ .done validation) :
    runSteps logger (step :: steps) context review object warnings state =
      ⟨ran.outcome, ran.state⟩ := by
  rw [runSteps, if_neg (by simp [notDone]), ran_eq]
  cases ended : ran.outcome with
  | failed failure => simp [ended]
  | panicked message => simp [ended]
  | done validation => exact absurd ended (failed validation)

theorem runSteps_of_end (notDone : context.isDone state.world = false)
    (ran_eq : step.run context review object state = ran)
    (done : ran.outcome = .done validation) (ends : validation.ends = true) :
    runSteps logger (step :: steps) context review object warnings state =
      ⟨.done (validation.behind warnings),
        logger.report context .debug (stopped validation.valid) ran.state⟩ := by
  rw [Validation.ends] at ends
  rw [runSteps, if_neg (by simp [notDone]), ran_eq]
  simp [done, ends, Validation.behind]

theorem runSteps_of_done (notDone : context.isDone state.world = false)
    (ran_eq : step.run context review object state = ran)
    (done : ran.outcome = .done validation) (goesOn : validation.ends = false) :
    runSteps logger (step :: steps) context review object warnings state =
      runSteps logger steps context review object (warnings ++ validation.warnings) ran.state := by
  rw [Validation.ends] at goesOn
  rw [runSteps, if_neg (by simp [notDone]), ran_eq]
  simp [done, goesOn]

end

/-- What a run leads to, the log apart. -/
structure Effect (σ : Type) where
  outcome : Outcome Failure Validation
  world : World σ

def Run.effect (ran : Run σ) : Effect σ :=
  ⟨ran.outcome, ran.state.world⟩

def Effect.andThen (effect : Effect σ) (warnings : List String)
    (next : List String → World σ → Effect σ) : Effect σ :=
  match effect.outcome with
  | .done validation =>
    if validation.ends then ⟨.done (validation.behind warnings), effect.world⟩
    else next (warnings ++ validation.warnings) effect.world
  | outcome => ⟨outcome, effect.world⟩

section

variable (effect : Effect σ) {warnings : List String} {next : List String → World σ → Effect σ}
  {validation : Validation}

theorem Effect.andThen_of_failure (failed : ∀ validation, effect.outcome ≠ .done validation) :
    effect.andThen warnings next = effect := by
  rw [andThen]
  split
  · rename_i validation done
    exact absurd done (failed validation)
  · rfl

theorem Effect.andThen_of_end (done : effect.outcome = .done validation)
    (ends : validation.ends = true) :
    effect.andThen warnings next = ⟨.done (validation.behind warnings), effect.world⟩ := by
  simp [andThen, done, ends]

theorem Effect.andThen_of_done (done : effect.outcome = .done validation)
    (goesOn : validation.ends = false) :
    effect.andThen warnings next = next (warnings ++ validation.warnings) effect.world := by
  simp [andThen, done, goesOn]

theorem Effect.world_andThen {effect : Effect σ} {P : World σ → Prop} (kept : P effect.world)
    (keeps : ∀ warnings world, P world → P (next warnings world).world) :
    P (effect.andThen warnings next).world := by
  rw [andThen]
  split
  · split
    · exact kept
    · exact keeps _ _ kept
  · exact kept

/-- Steps may be grouped: an outer chain goes on with what an inner one makes of a step. -/
theorem Effect.andThen_andThen {inner : List String}
    {rest grouped : List String → World σ → Effect σ}
    (same : ∀ found world, (next (inner ++ found) world).andThen warnings rest =
      grouped (warnings ++ (inner ++ found)) world) :
    (effect.andThen inner next).andThen warnings rest =
      effect.andThen (warnings ++ inner) grouped := by
  -- a step that fails or ends its chain ends both chains at once
  by_cases succeeded : ∃ validation, effect.outcome = .done validation
  · obtain ⟨validation, done⟩ := succeeded
    cases ends : validation.ends with
    | true =>
      have ended : (validation.behind inner).ends = true := ends
      rw [effect.andThen_of_end done ends, effect.andThen_of_end done ends,
        andThen_of_end ⟨_, _⟩ rfl ended, Validation.behind_behind]
    | false =>
      rw [effect.andThen_of_done done ends, effect.andThen_of_done done ends, same,
        List.append_assoc]
  · have failed := not_exists.1 succeeded
    rw [effect.andThen_of_failure failed, effect.andThen_of_failure failed,
      effect.andThen_of_failure failed]

end

mutual

def effect (validator : Validator σ) (context : Context) (review : Review) (object : Object)
    (world : World σ) : Effect σ :=
  match validator with
  | .leaf call =>
    let done := call context review object world
    ⟨done.outcome, done.world⟩
  | .chain _ steps => effectSteps steps context review object [] world

def effectSteps (steps : List (Validator σ)) (context : Context) (review : Review) (object : Object)
    (warnings : List String) (world : World σ) : Effect σ :=
  match steps with
  | [] => ⟨.done { warnings }, world⟩
  | step :: steps =>
    if context.isDone world then ⟨.failed (.cancelled .validating), world⟩
    else (step.effect context review object world).andThen warnings
      fun warnings world => effectSteps steps context review object warnings world

end

mutual

/-- The log decides nothing. -/
theorem effect_run (validator : Validator σ) (context : Context) (review : Review)
    (object : Object) (state : State σ) : (validator.run context review object state).effect =
      validator.effect context review object state.world := by
  cases validator with
  | leaf call => rfl
  | chain logger steps =>
    rw [run, effect]
    exact effect_runSteps (chainLogger logger) steps context review object [] state

theorem effect_runSteps (logger : Logger) (steps : List (Validator σ)) (context : Context)
    (review : Review) (object : Object) (warnings : List String) (state : State σ) :
    (runSteps logger steps context review object warnings state).effect =
      effectSteps steps context review object warnings state.world := by
  cases steps with
  | nil => rfl
  | cons step steps =>
    have step_effect := effect_run step context review object state
    generalize ran_eq : step.run context review object state = ran at step_effect
    rw [effectSteps, ← step_effect]
    cases isDone : context.isDone state.world with
    | true =>
      rw [runSteps_of_isDone isDone]
      exact (if_pos rfl).symm
    | false =>
      refine Eq.trans ?_ (if_neg Bool.false_ne_true).symm
      by_cases succeeded : ∃ validation, ran.outcome = .done validation
      · obtain ⟨validation, done⟩ := succeeded
        cases ends : validation.ends with
        | true =>
          rw [runSteps_of_end isDone ran_eq done ends, Effect.andThen_of_end ran.effect done ends]
          rfl
        | false =>
          rw [runSteps_of_done isDone ran_eq done ends,
            Effect.andThen_of_done ran.effect done ends]
          exact effect_runSteps logger steps context review object _ ran.state
      · have failed := not_exists.1 succeeded
        rw [runSteps_of_failure isDone ran_eq failed, Effect.andThen_of_failure ran.effect failed]

end

mutual

def leaves : Validator σ → List (Validator σ)
  | .leaf call => [.leaf call]
  | .chain _ steps => leavesOf steps

def leavesOf : List (Validator σ) → List (Validator σ)
  | [] => []
  | step :: steps => leaves step ++ leavesOf steps

end

mutual

def mapLeaves (f : Leaf σ → Leaf τ) : Validator σ → Validator τ
  | .leaf call => .leaf (f call)
  | .chain logger steps => .chain logger (mapLeavesOf f steps)

def mapLeavesOf (f : Leaf σ → Leaf τ) : List (Validator σ) → List (Validator τ)
  | [] => []
  | step :: steps => mapLeaves f step :: mapLeavesOf f steps

end

theorem mapLeavesOf_eq (f : Leaf σ → Leaf τ) (steps : List (Validator σ)) :
    mapLeavesOf f steps = steps.map (mapLeaves f) := by
  induction steps with
  | nil => rfl
  | cons step steps ih => rw [mapLeavesOf, ih, List.map_cons]

mutual

theorem leaves_mapLeaves (f : Leaf σ → Leaf τ) (validator : Validator σ) :
    (validator.mapLeaves f).leaves = mapLeavesOf f validator.leaves := by
  cases validator with
  | leaf call => rfl
  | chain logger steps =>
    rw [mapLeaves, leaves, leaves]
    exact leavesOf_mapLeavesOf f steps

theorem leavesOf_mapLeavesOf (f : Leaf σ → Leaf τ) (steps : List (Validator σ)) :
    leavesOf (mapLeavesOf f steps) = mapLeavesOf f (leavesOf steps) := by
  cases steps with
  | nil => rfl
  | cons step steps =>
    rw [mapLeavesOf, leavesOf, leavesOf, leaves_mapLeaves, leavesOf_mapLeavesOf, mapLeavesOf_eq,
      mapLeavesOf_eq, mapLeavesOf_eq, List.map_append]

end

mutual

/-- The tree of a validator, the loggers apart. -/
def nest : Validator σ → Nest (Leaf σ)
  | .leaf call => .leaf call
  | .chain _ steps => .chain (nestOf steps)

def nestOf : List (Validator σ) → List (Nest (Leaf σ))
  | [] => []
  | step :: steps => nest step :: nestOf steps

end

mutual

theorem nest_mapLeaves (f : Leaf σ → Leaf τ) (validator : Validator σ) :
    (validator.mapLeaves f).nest = validator.nest.map f := by
  cases validator with
  | leaf call => rfl
  | chain logger steps =>
    rw [mapLeaves, nest, nest, Nest.map]
    exact congrArg Nest.chain (nestOf_mapLeavesOf f steps)

theorem nestOf_mapLeavesOf (f : Leaf σ → Leaf τ) (steps : List (Validator σ)) :
    nestOf (mapLeavesOf f steps) = Nest.mapOf f (nestOf steps) := by
  cases steps with
  | nil => rfl
  | cons step steps =>
    rw [mapLeavesOf, nestOf, nestOf, Nest.mapOf, nest_mapLeaves, nestOf_mapLeavesOf]

end

section

variable {context other : Context} {review request : Review} {object : Object}

mutual

/-- Validators whose leaves do the same at the same places do the same, also when they are handed
different contexts and reviews. -/
theorem effect_congr {first second : Validator σ} (same : first.nest = second.nest)
    (signal : context.signal = other.signal)
    (agree : first.nest.All fun leaf => ∀ object world,
      leaf context review object world = leaf other request object world)
    (world : World σ) :
    first.effect context review object world = second.effect other request object world := by
  cases first with
  | leaf call =>
    cases second with
    | leaf twin =>
      obtain rfl := Nest.leaf.inj same
      cases agree with
      | leaf holds => rw [effect, effect, holds]
    | chain logger steps => cases same
  | chain logger steps =>
    cases second with
    | leaf call => cases same
    | chain otherLogger others =>
      rw [effect, effect]
      exact effectSteps_congr (Nest.chain.inj same) signal agree.of_mem [] world

theorem effectSteps_congr {steps others : List (Validator σ)} (same : nestOf steps = nestOf others)
    (signal : context.signal = other.signal)
    (agree : ∀ nest ∈ nestOf steps, nest.All fun leaf => ∀ object world,
      leaf context review object world = leaf other request object world)
    (warnings : List String) (world : World σ) :
    effectSteps steps context review object warnings world =
      effectSteps others other request object warnings world := by
  cases steps with
  | nil =>
    cases others with
    | nil => rfl
    | cons step steps => cases same
  | cons step steps =>
    cases others with
    | nil => cases same
    | cons twin others =>
      obtain ⟨first, rest⟩ := List.cons.inj same
      rw [nestOf, List.forall_mem_cons] at agree
      have isDone : context.isDone world = other.isDone world := by
        rw [Context.isDone, signal, Context.isDone]
      have behind (warnings : List String) (world : World σ) :=
        effectSteps_congr rest signal agree.2 warnings world
      simp only [effectSteps, isDone, effect_congr first signal agree.1, behind]

end

end

/-- A leaf, or a chain of at least one step in which every step is full. -/
inductive Full : Validator σ → Prop where
  | leaf (call : Leaf σ) : Full (.leaf call)
  | chain (logger : Logger) {steps : List (Validator σ)} (nonempty : steps ≠ [])
    (full : ∀ step ∈ steps, Full step) : Full (.chain logger steps)

theorem Full.mapLeaves (f : Leaf σ → Leaf τ) {validator : Validator σ} (full : validator.Full) :
    (validator.mapLeaves f).Full := by
  induction full with
  | leaf call => exact .leaf _
  | chain logger nonempty full ih =>
    rw [Validator.mapLeaves, mapLeavesOf_eq]
    refine .chain logger (by simpa using nonempty) fun mapped mem => ?_
    obtain ⟨step, inSteps, rfl⟩ := List.mem_map.1 mem
    exact ih step inSteps

/-- The steps of a chain and of the chain around it are one after the other. -/
theorem effectSteps_append (steps more : List (Validator σ)) (context : Context) (review : Review)
    (object : Object) (warnings inner : List String) (world : World σ) :
    effectSteps (steps ++ more) context review object (warnings ++ inner) world =
      (effectSteps steps context review object inner world).andThen warnings
        fun warnings world => effectSteps more context review object warnings world := by
  induction steps generalizing inner world with
  | nil =>
    -- the inner chain is through with a verdict that ends nothing
    have goesOn : Validation.ends { warnings := inner } = false := rfl
    exact (Effect.andThen_of_done ⟨_, _⟩ rfl goesOn).symm
  | cons step steps ih =>
    rw [List.cons_append, effectSteps, effectSteps]
    split
    · exact (Effect.andThen_of_failure ⟨_, _⟩ (by simp)).symm
    · exact (Effect.andThen_andThen _ fun found world => (ih (inner ++ found) world).symm).symm

theorem effectSteps_chain (logger : Logger) {steps : List (Validator σ)} (nonempty : steps ≠ [])
    (more : List (Validator σ)) (context : Context) (review : Review) (object : Object)
    (warnings : List String) (world : World σ) :
    effectSteps (steps ++ more) context review object warnings world =
      effectSteps (.chain logger steps :: more) context review object warnings world := by
  have grouped := effectSteps_append steps more context review object warnings [] world
  rw [List.append_nil] at grouped
  rw [grouped, effectSteps, effect]
  split
  · -- the inner chain finds the request over before its first step, and so does the outer one
    rename_i isDone
    cases steps with
    | nil => exact absurd rfl nonempty
    | cons step steps => rw [effectSteps, if_pos isDone, Effect.andThen_of_failure _ (by simp)]
  · rfl

theorem effectSteps_leavesOf {steps : List (Validator σ)} {context : Context} {review : Review}
    {object : Object}
    (leaves : ∀ step ∈ steps, ∀ more warnings world,
      effectSteps (step.leaves ++ more) context review object warnings world =
        effectSteps (step :: more) context review object warnings world)
    (more : List (Validator σ)) (warnings : List String) (world : World σ) :
    effectSteps (leavesOf steps ++ more) context review object warnings world =
      effectSteps (steps ++ more) context review object warnings world := by
  induction steps generalizing warnings world with
  | nil => rfl
  | cons step steps ih =>
    rw [List.forall_mem_cons] at leaves
    simp only [leavesOf, List.append_assoc, leaves.1, List.cons_append, effectSteps, ih leaves.2]

theorem effectSteps_leaves {step : Validator σ} (full : step.Full) (context : Context)
    (review : Review) (object : Object) (more : List (Validator σ)) (warnings : List String)
    (world : World σ) :
    effectSteps (step.leaves ++ more) context review object warnings world =
      effectSteps (step :: more) context review object warnings world := by
  induction full generalizing more warnings world with
  | leaf call => rfl
  | chain logger nonempty full ih =>
    rw [leaves, effectSteps_leavesOf ih more warnings world,
      effectSteps_chain logger nonempty more context review object warnings world]

theorem effect_flat {steps : List (Validator σ)} (full : ∀ step ∈ steps, step.Full)
    (logger flatLogger : Logger) (context : Context) (review : Review) (object : Object)
    (world : World σ) : (chain logger steps).effect context review object world =
      (chain flatLogger (leavesOf steps)).effect context review object world := by
  have flat : effectSteps (leavesOf steps ++ []) context review object [] world =
      effectSteps (steps ++ []) context review object [] world :=
    effectSteps_leavesOf
      (fun step mem => effectSteps_leaves (full step mem) context review object) [] [] world
  rw [List.append_nil, List.append_nil] at flat
  rw [effect, effect, flat]

/-! ## Calls of leaves -/

/-- A call that was made of a leaf, with the object and the world it was handed. -/
structure LeafCall (σ : Type) where
  leaf : Leaf σ
  object : Object
  world : World σ

def noting {κ : Type} (entry : Context → Review → Object → World σ → κ) (call : Leaf σ) :
    Leaf (σ × List κ) := fun context review object world =>
  let done := call context review object world.unlogged
  { outcome := done.outcome
    world := done.world.withOwn
      (done.world.own, world.own.2 ++ [entry context review object world.unlogged]) }

section

variable {κ : Type} {entry : Leaf σ → Context → Review → Object → World σ → κ} {P : κ → Prop}
  {context : Context} {review : Review}

mutual

/-- What every leaf notes is noted of a run, and nothing else. -/
theorem effect_noting (holds : ∀ call object world, P (entry call context review object world))
    (validator : Validator σ) (object : Object) {world : World (σ × List κ)}
    (before : ∀ noted ∈ world.own.2, P noted) :
    ∀ noted ∈ ((validator.mapLeaves fun call => noting (entry call) call).effect context review
      object world).world.own.2, P noted := by
  cases validator with
  | leaf call =>
    refine List.forall_mem_append.2 ⟨before, List.forall_mem_singleton.2 ?_⟩
    exact holds call object world.unlogged
  | chain logger steps =>
    rw [mapLeaves, effect]
    exact effectSteps_noting holds steps object [] before

theorem effectSteps_noting
    (holds : ∀ call object world, P (entry call context review object world))
    (steps : List (Validator σ)) (object : Object) (warnings : List String)
    {world : World (σ × List κ)} (before : ∀ noted ∈ world.own.2, P noted) :
    ∀ noted ∈ (effectSteps (mapLeavesOf (fun call => noting (entry call) call) steps) context review
      object warnings world).world.own.2, P noted := by
  cases steps with
  | nil => exact before
  | cons step steps =>
    rw [mapLeavesOf, effectSteps]
    split
    · exact before
    · exact Effect.world_andThen (P := fun world : World (σ × List κ) => ∀ noted ∈ world.own.2, P noted)
        (effect_noting holds step object before)
        fun warnings world before => effectSteps_noting holds steps object warnings before

end

end

def logging (call : Leaf σ) : Leaf (σ × List (LeafCall σ)) :=
  noting (fun _ _ object world => ⟨call, object, world⟩) call

def logged : Validator σ → Validator (σ × List (LeafCall σ)) :=
  mapLeaves logging

def loggedSteps : List (Validator σ) → List (Validator (σ × List (LeafCall σ))) :=
  mapLeavesOf logging

theorem logged_chain (logger : Logger) (steps : List (Validator σ)) :
    (chain logger steps).logged = chain logger (loggedSteps steps) :=
  rfl

theorem loggedSteps_cons (step : Validator σ) (steps : List (Validator σ)) :
    loggedSteps (step :: steps) = step.logged :: loggedSteps steps :=
  rfl

def calls (validator : Validator σ) (context : Context) (review : Review) (object : Object)
    (state : State σ) : List (LeafCall σ) :=
  (validator.logged.run context review object
    ⟨state.world.withOwn (state.world.own, []), state.telemetry⟩).state.world.own.2

def Effect.unlogged (effect : Effect (σ × List (LeafCall σ))) : Effect σ :=
  ⟨effect.outcome, effect.world.unlogged⟩

def Effect.mapWorld {τ : Type} (effect : Effect σ) (f : World σ → World τ) : Effect τ :=
  ⟨effect.outcome, f effect.world⟩

theorem Effect.mapWorld_andThen {τ : Type} {f : World σ → World τ} {effect : Effect σ}
    {warnings : List String} {next : List String → World σ → Effect σ}
    {next' : List String → World τ → Effect τ}
    (same : ∀ warnings world, (next warnings world).mapWorld f = next' warnings (f world)) :
    (effect.andThen warnings next).mapWorld f = (effect.mapWorld f).andThen warnings next' := by
  by_cases succeeded : ∃ validation, effect.outcome = .done validation
  · obtain ⟨validation, done⟩ := succeeded
    cases ends : validation.ends with
    | true =>
      rw [effect.andThen_of_end done ends, (effect.mapWorld f).andThen_of_end done ends]
      rfl
    | false =>
      rw [effect.andThen_of_done done ends, (effect.mapWorld f).andThen_of_done done ends]
      exact same _ _
  · have failed := not_exists.1 succeeded
    rw [effect.andThen_of_failure failed, (effect.mapWorld f).andThen_of_failure failed]

theorem Effect.unlogged_andThen {effect : Effect (σ × List (LeafCall σ))} {warnings : List String}
    {next : List String → World (σ × List (LeafCall σ)) → Effect (σ × List (LeafCall σ))}
    {next' : List String → World σ → Effect σ}
    (same : ∀ warnings world, (next warnings world).unlogged = next' warnings world.unlogged) :
    (effect.andThen warnings next).unlogged = effect.unlogged.andThen warnings next' :=
  mapWorld_andThen same

mutual

theorem effect_logged (validator : Validator σ) (context : Context) (review : Review)
    (object : Object) (world : World (σ × List (LeafCall σ))) :
    (validator.logged.effect context review object world).unlogged =
      validator.effect context review object world.unlogged := by
  cases validator with
  | leaf call => rfl
  | chain logger steps =>
    rw [logged_chain, effect, effect]
    exact effectSteps_logged steps context review object [] world

theorem effectSteps_logged (steps : List (Validator σ)) (context : Context) (review : Review)
    (object : Object) (warnings : List String) (world : World (σ × List (LeafCall σ))) :
    (effectSteps (loggedSteps steps) context review object warnings world).unlogged =
      effectSteps steps context review object warnings world.unlogged := by
  cases steps with
  | nil => rfl
  | cons step steps =>
    have isDone : context.isDone world.unlogged = context.isDone world := rfl
    rw [loggedSteps_cons, effectSteps, effectSteps, isDone]
    split
    · rfl
    · rw [Effect.unlogged_andThen fun warnings world =>
        effectSteps_logged steps context review object warnings world, effect_logged]

end

/-- A run whose calls are written down is the run itself. -/
theorem run_logged (validator : Validator σ) (context : Context) (review : Review)
    (object : Object) (state : State (σ × List (LeafCall σ))) :
    (validator.logged.run context review object state).effect.unlogged =
      (validator.run context review object ⟨state.world.unlogged, state.telemetry⟩).effect := by
  rw [effect_run, effect_run, effect_logged]

theorem calls_eq (validator : Validator σ) (context : Context) (review : Review)
    (object : Object) (state : State σ) : validator.calls context review object state =
      (validator.logged.effect context review object
        (state.world.withOwn (state.world.own, []))).world.own.2 :=
  congrArg (fun effect => effect.world.own.2) (effect_run validator.logged context review object _)

theorem calls_flat {steps : List (Validator σ)} (full : ∀ step ∈ steps, step.Full)
    (logger flatLogger : Logger) (context : Context) (review : Review) (object : Object)
    (state : State σ) : (chain logger steps).calls context review object state =
      (chain flatLogger (leavesOf steps)).calls context review object state := by
  have logged_full : ∀ step ∈ loggedSteps steps, step.Full := fun logged mem => by
    rw [loggedSteps, mapLeavesOf_eq] at mem
    obtain ⟨step, inSteps, rfl⟩ := List.mem_map.1 mem
    exact (full step inSteps).mapLeaves logging
  have leaves : leavesOf (loggedSteps steps) = loggedSteps (leavesOf steps) :=
    leavesOf_mapLeavesOf logging steps
  rw [calls_eq, calls_eq, logged_chain, logged_chain, effect_flat logged_full logger flatLogger,
    leaves]

end Validator

end Admission
