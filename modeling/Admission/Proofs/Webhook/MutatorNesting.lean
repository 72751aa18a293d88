import Admission.Proofs.Webhook.Chain
import Admission.Proofs.Webhook.Visits

/-! Chains of mutators inside chains. What a nest of chains does to the object and the world is what
the chain of its leaves does; only the log tells them apart. -/

set_option autoImplicit false

namespace Admission

def World.withOwn {σ τ : Type} (world : World σ) (own : τ) : World τ :=
  ⟨world.now, world.tokens, world.cancelled, own⟩

def World.unlogged {σ κ : Type} (world : World (σ × List κ)) : World σ :=
  world.withOwn world.own.1

namespace Mutation

/-! What was done is added up in any grouping. -/

theorem add_add (sofar : Mutation) (inner : Object) (first : Mutation) (left : Object)
    (second : Mutation) : (sofar.add inner first).add left second =
      sofar.add (first.kept inner left) (first.add left second) := by
  simp only [add, kept]
  cases second.replacement <;> cases first.replacement <;> cases sofar.replacement <;> simp

theorem kept_add (sofar : Mutation) (object inner left : Object) (first : Mutation) :
    (sofar.add inner first).kept (sofar.kept object inner) left =
      sofar.kept object (first.kept inner left) := by
  obtain ⟨replacement, warnings, stop⟩ := sofar
  cases replacement <;> simp [add, kept]

theorem add_nothing {sofar : Mutation} (goesOn : sofar.stop = false) (object : Object) :
    sofar.add (sofar.replacement.getD object) {} = sofar := by
  obtain ⟨replacement, warnings, stop⟩ := sofar
  cases goesOn
  cases replacement <;> simp [add]

theorem kept_nothing (sofar : Mutation) (object : Object) :
    sofar.kept object (sofar.replacement.getD object) = object := by
  obtain ⟨replacement, warnings, stop⟩ := sofar
  cases replacement <;> rfl

end Mutation

namespace Mutator

variable {σ τ : Type}

/-- What a run leads to, the log apart. -/
structure Effect (σ : Type) where
  outcome : Outcome Failure Mutation
  object : Object
  world : World σ

def Run.effect (ran : Run σ) : Effect σ :=
  ⟨ran.outcome, ran.object, ran.state.world⟩

def Effect.andThen (effect : Effect σ) (sofar : Mutation) (object : Object)
    (next : Object → Mutation → World σ → Effect σ) : Effect σ :=
  match effect.outcome with
  | .done mutation =>
    if mutation.stop then
      ⟨.done (sofar.add effect.object mutation), sofar.kept object effect.object, effect.world⟩
    else next (sofar.kept object effect.object) (sofar.add effect.object mutation) effect.world
  | outcome => ⟨outcome, sofar.kept object effect.object, effect.world⟩

section

variable (effect : Effect σ) {sofar : Mutation} {object : Object}
  {next : Object → Mutation → World σ → Effect σ} {mutation : Mutation}

theorem Effect.andThen_of_failure (failed : ∀ mutation, effect.outcome ≠ .done mutation) :
    effect.andThen sofar object next =
      ⟨effect.outcome, sofar.kept object effect.object, effect.world⟩ := by
  rw [andThen]
  split
  · rename_i mutation done
    exact absurd done (failed mutation)
  · rfl

theorem Effect.andThen_of_stop (done : effect.outcome = .done mutation)
    (stop : mutation.stop = true) : effect.andThen sofar object next =
      ⟨.done (sofar.add effect.object mutation), sofar.kept object effect.object, effect.world⟩ := by
  simp [andThen, done, stop]

theorem Effect.andThen_of_done (done : effect.outcome = .done mutation)
    (goesOn : mutation.stop = false) : effect.andThen sofar object next =
      next (sofar.kept object effect.object) (sofar.add effect.object mutation) effect.world := by
  simp [andThen, done, goesOn]

theorem Effect.world_andThen {effect : Effect σ} {P : World σ → Prop} (kept : P effect.world)
    (keeps : ∀ object sofar world, P world → P (next object sofar world).world) :
    P (effect.andThen sofar object next).world := by
  rw [andThen]
  split
  · split
    · exact kept
    · exact keeps _ _ _ kept
  · exact kept

/-- A chain goes on only with what was done by steps of which none asked to stop. -/
theorem Effect.andThen_congr {next' : Object → Mutation → World σ → Effect σ}
    (same : ∀ object sofar world, sofar.stop = false →
      next object sofar world = next' object sofar world) :
    effect.andThen sofar object next = effect.andThen sofar object next' := by
  by_cases succeeded : ∃ mutation, effect.outcome = .done mutation
  · obtain ⟨mutation, done⟩ := succeeded
    cases stop : mutation.stop with
    | true => rw [effect.andThen_of_stop done stop, effect.andThen_of_stop done stop]
    | false =>
      rw [effect.andThen_of_done done stop, effect.andThen_of_done done stop]
      exact same _ _ _ stop
  · have failed := not_exists.1 succeeded
    rw [effect.andThen_of_failure failed, effect.andThen_of_failure failed]

/-- Steps may be grouped: an outer chain goes on with what an inner one makes of a step. -/
theorem Effect.andThen_andThen {inner : Object} {first : Mutation}
    {rest grouped : Object → Mutation → World σ → Effect σ}
    (same : ∀ left mutation world, mutation.stop = false →
      (next (first.kept inner left) (first.add left mutation) world).andThen sofar object rest =
        grouped (sofar.kept object (first.kept inner left))
          (sofar.add (first.kept inner left) (first.add left mutation)) world) :
    (effect.andThen first inner next).andThen sofar object rest =
      effect.andThen (sofar.add inner first) (sofar.kept object inner) grouped := by
  -- a step that fails or asks to stop ends both chains at once
  by_cases succeeded : ∃ mutation, effect.outcome = .done mutation
  · obtain ⟨mutation, done⟩ := succeeded
    cases stop : mutation.stop with
    | true =>
      have stopped : (first.add effect.object mutation).stop = true := stop
      rw [effect.andThen_of_stop done stop, effect.andThen_of_stop done stop,
        andThen_of_stop ⟨_, _, _⟩ rfl stopped, Mutation.add_add, Mutation.kept_add]
    | false =>
      rw [effect.andThen_of_done done stop, effect.andThen_of_done done stop, same _ _ _ stop,
        Mutation.add_add, Mutation.kept_add]
  · have failed := not_exists.1 succeeded
    rw [effect.andThen_of_failure failed, effect.andThen_of_failure failed,
      andThen_of_failure ⟨effect.outcome, first.kept inner effect.object, effect.world⟩ failed,
      Mutation.kept_add]

end

mutual

def effect (mutator : Mutator σ) (context : Context) (review : Review) (object : Object)
    (world : World σ) : Effect σ :=
  match mutator with
  | .leaf call =>
    let done := call context review object world
    ⟨done.outcome, done.object, done.world⟩
  | .chain _ steps => effectSteps steps context review object {} world

def effectSteps (steps : List (Mutator σ)) (context : Context) (review : Review) (object : Object)
    (sofar : Mutation) (world : World σ) : Effect σ :=
  match steps with
  | [] => ⟨.done sofar, object, world⟩
  | step :: steps =>
    if context.isDone world then ⟨.failed (.cancelled .mutating), object, world⟩
    else (step.effect context review (sofar.replacement.getD object) world).andThen sofar object
      fun object sofar world => effectSteps steps context review object sofar world

end

theorem world_remarks (state : State σ) (context : Context) (remarks : List Remark) :
    (state.remarks context remarks).world = state.world := by
  induction remarks generalizing state with
  | nil => rfl
  | cons remark remarks ih => exact ih (state.remark context remark)

mutual

/-- The log decides nothing. -/
theorem effect_run (mutator : Mutator σ) (context : Context) (review : Review) (object : Object)
    (state : State σ) : (mutator.run context review object state).effect =
      mutator.effect context review object state.world := by
  cases mutator with
  | leaf call =>
    rw [run, effect, Run.effect, world_remarks]
  | chain logger steps =>
    rw [run, effect]
    exact effect_runSteps (chainLogger logger) steps context review object {} state

theorem effect_runSteps (logger : Logger) (steps : List (Mutator σ)) (context : Context)
    (review : Review) (object : Object) (sofar : Mutation) (state : State σ) :
    (runSteps logger steps context review object sofar state).effect =
      effectSteps steps context review object sofar state.world := by
  cases steps with
  | nil => rfl
  | cons step steps =>
    have step_effect := effect_run step context review (sofar.replacement.getD object) state
    generalize ran_eq : step.run context review (sofar.replacement.getD object) state = ran
      at step_effect
    rw [effectSteps, ← step_effect]
    cases isDone : context.isDone state.world with
    | true =>
      rw [runSteps_of_isDone isDone]
      exact (if_pos rfl).symm
    | false =>
      refine Eq.trans ?_ (if_neg Bool.false_ne_true).symm
      by_cases succeeded : ∃ mutation, ran.outcome = .done mutation
      · obtain ⟨mutation, done⟩ := succeeded
        cases stop : mutation.stop with
        | true =>
          rw [runSteps_of_stop isDone ran_eq done stop, Effect.andThen_of_stop ran.effect done stop]
          rfl
        | false =>
          rw [runSteps_of_done isDone ran_eq done stop, Effect.andThen_of_done ran.effect done stop]
          exact effect_runSteps logger steps context review _ _ ran.state
      · have failed := not_exists.1 succeeded
        rw [runSteps_of_failure isDone ran_eq failed, Effect.andThen_of_failure ran.effect failed]
        rfl

end

mutual

def leaves : Mutator σ → List (Mutator σ)
  | .leaf call => [.leaf call]
  | .chain _ steps => leavesOf steps

def leavesOf : List (Mutator σ) → List (Mutator σ)
  | [] => []
  | step :: steps => leaves step ++ leavesOf steps

end

mutual

def mapLeaves (f : Leaf σ → Leaf τ) : Mutator σ → Mutator τ
  | .leaf call => .leaf (f call)
  | .chain logger steps => .chain logger (mapLeavesOf f steps)

def mapLeavesOf (f : Leaf σ → Leaf τ) : List (Mutator σ) → List (Mutator τ)
  | [] => []
  | step :: steps => mapLeaves f step :: mapLeavesOf f steps

end

theorem mapLeavesOf_eq (f : Leaf σ → Leaf τ) (steps : List (Mutator σ)) :
    mapLeavesOf f steps = steps.map (mapLeaves f) := by
  induction steps with
  | nil => rfl
  | cons step steps ih => rw [mapLeavesOf, ih, List.map_cons]

mutual

theorem leaves_mapLeaves (f : Leaf σ → Leaf τ) (mutator : Mutator σ) :
    (mutator.mapLeaves f).leaves = mapLeavesOf f mutator.leaves := by
  cases mutator with
  | leaf call => rfl
  | chain logger steps =>
    rw [mapLeaves, leaves, leaves]
    exact leavesOf_mapLeavesOf f steps

theorem leavesOf_mapLeavesOf (f : Leaf σ → Leaf τ) (steps : List (Mutator σ)) :
    leavesOf (mapLeavesOf f steps) = mapLeavesOf f (leavesOf steps) := by
  cases steps with
  | nil => rfl
  | cons step steps =>
    rw [mapLeavesOf, leavesOf, leavesOf, leaves_mapLeaves, leavesOf_mapLeavesOf, mapLeavesOf_eq,
      mapLeavesOf_eq, mapLeavesOf_eq, List.map_append]

end

mutual

/-- The tree of a mutator, the loggers apart. -/
def nest : Mutator σ → Nest (Leaf σ)
  | .leaf call => .leaf call
  | .chain _ steps => .chain (nestOf steps)

def nestOf : List (Mutator σ) → List (Nest (Leaf σ))
  | [] => []
  | step :: steps => nest step :: nestOf steps

end

mutual

theorem nest_mapLeaves (f : Leaf σ → Leaf τ) (mutator : Mutator σ) :
    (mutator.mapLeaves f).nest = mutator.nest.map f := by
  cases mutator with
  | leaf call => rfl
  | chain logger steps =>
    rw [mapLeaves, nest, nest, Nest.map]
    exact congrArg Nest.chain (nestOf_mapLeavesOf f steps)

theorem nestOf_mapLeavesOf (f : Leaf σ → Leaf τ) (steps : List (Mutator σ)) :
    nestOf (mapLeavesOf f steps) = Nest.mapOf f (nestOf steps) := by
  cases steps with
  | nil => rfl
  | cons step steps =>
    rw [mapLeavesOf, nestOf, nestOf, Nest.mapOf, nest_mapLeaves, nestOf_mapLeavesOf]

end

section

variable {context other : Context} {review request : Review}

mutual

/-- Mutators whose leaves do the same at the same places do the same, also when they are handed
different contexts and reviews. -/
theorem effect_congr {first second : Mutator σ} (same : first.nest = second.nest)
    (signal : context.signal = other.signal)
    (agree : first.nest.All fun leaf => ∀ object world,
      leaf context review object world = leaf other request object world)
    (object : Object) (world : World σ) :
    first.effect context review object world = second.effect other request object world := by
  cases first with
  | leaf call =>
    cases second with
    | leaf twin =>
      obtain rfl := Nest.leaf.inj same
      cases agree with
      | leaf holds => rw [effect, effect, holds]
    | chain logger steps => cases same
  | chain logger steps =>
    cases second with
    | leaf call => cases same
    | chain otherLogger others =>
      rw [effect, effect]
      exact effectSteps_congr (Nest.chain.inj same) signal agree.of_mem object {} world

theorem effectSteps_congr {steps others : List (Mutator σ)} (same : nestOf steps = nestOf others)
    (signal : context.signal = other.signal)
    (agree : ∀ nest ∈ nestOf steps, nest.All fun leaf => ∀ object world,
      leaf context review object world = leaf other request object world)
    (object : Object) (sofar : Mutation) (world : World σ) :
    effectSteps steps context review object sofar world =
      effectSteps others other request object sofar world := by
  cases steps with
  | nil =>
    cases others with
    | nil => rfl
    | cons step steps => cases same
  | cons step steps =>
    cases others with
    | nil => cases same
    | cons twin others =>
      obtain ⟨first, rest⟩ := List.cons.inj same
      rw [nestOf, List.forall_mem_cons] at agree
      have isDone : context.isDone world = other.isDone world := by
        rw [Context.isDone, signal, Context.isDone]
      rw [effectSteps, effectSteps, isDone, effect_congr first signal agree.1]
      split
      · rfl
      · exact Effect.andThen_congr _ fun object sofar world _ =>
          effectSteps_congr rest signal agree.2 object sofar world

end

end

/-- A leaf, or a chain of at least one step in which every step is full. -/
inductive Full : Mutator σ → Prop where
  | leaf (call : Leaf σ) : Full (.leaf call)
  | chain (logger : Logger) {steps : List (Mutator σ)} (nonempty : steps ≠ [])
    (full : ∀ step ∈ steps, Full step) : Full (.chain logger steps)

theorem Full.mapLeaves (f : Leaf σ → Leaf τ) {mutator : Mutator σ} (full : mutator.Full) :
    (mutator.mapLeaves f).Full := by
  induction full with
  | leaf call => exact .leaf _
  | chain logger nonempty full ih =>
    rw [Mutator.mapLeaves, mapLeavesOf_eq]
    refine .chain logger (by simpa using nonempty) fun mapped mem => ?_
    obtain ⟨step, inSteps, rfl⟩ := List.mem_map.1 mem
    exact ih step inSteps

/-- The steps of a chain and of the chain around it are one after the other. -/
theorem effectSteps_append (steps more : List (Mutator σ)) (context : Context) (review : Review)
    (object inner : Object) (sofar first : Mutation) (world : World σ)
    (goesOn : first.stop = false) :
    effectSteps (steps ++ more) context review (sofar.kept object inner) (sofar.add inner first)
        world =
      (effectSteps steps context review inner first world).andThen sofar object
        fun object sofar world => effectSteps more context review object sofar world := by
  induction steps generalizing inner first world with
  -- the inner chain is through, and the outer one goes on with what it did
  | nil => exact (Effect.andThen_of_done ⟨_, _, _⟩ rfl goesOn).symm
  | cons step steps ih =>
    rw [List.cons_append, effectSteps, effectSteps, Mutation.current_add]
    split
    · exact (Effect.andThen_of_failure ⟨_, _, _⟩ (by simp)).symm
    · refine (Effect.andThen_andThen _ fun left mutation world goesOn => ?_).symm
      exact (ih (first.kept inner left) (first.add left mutation) world goesOn).symm

theorem effectSteps_chain (logger : Logger) {steps : List (Mutator σ)} (nonempty : steps ≠ [])
    (more : List (Mutator σ)) (context : Context) (review : Review) (object : Object)
    (sofar : Mutation) (world : World σ) (goesOn : sofar.stop = false) :
    effectSteps (steps ++ more) context review object sofar world =
      effectSteps (.chain logger steps :: more) context review object sofar world := by
  have grouped := effectSteps_append steps more context review object
    (sofar.replacement.getD object) sofar {} world rfl
  rw [Mutation.kept_nothing, Mutation.add_nothing goesOn] at grouped
  rw [grouped, effectSteps, effect]
  split
  · -- the inner chain finds the request over before its first step, and so does the outer one
    rename_i isDone
    cases steps with
    | nil => exact absurd rfl nonempty
    | cons step steps =>
      rw [effectSteps, if_pos isDone, Effect.andThen_of_failure _ (by simp), Mutation.kept_nothing]
  · rfl

theorem effectSteps_leavesOf {steps : List (Mutator σ)} {context : Context} {review : Review}
    (leaves : ∀ step ∈ steps, ∀ more object sofar world, sofar.stop = false →
      effectSteps (step.leaves ++ more) context review object sofar world =
        effectSteps (step :: more) context review object sofar world)
    (more : List (Mutator σ)) (object : Object) (sofar : Mutation) (world : World σ)
    (goesOn : sofar.stop = false) :
    effectSteps (leavesOf steps ++ more) context review object sofar world =
      effectSteps (steps ++ more) context review object sofar world := by
  induction steps generalizing object sofar world with
  | nil => rfl
  | cons step steps ih =>
    rw [List.forall_mem_cons] at leaves
    rw [leavesOf, List.append_assoc, leaves.1 _ _ _ _ goesOn, List.cons_append, effectSteps,
      effectSteps]
    split
    · rfl
    · exact Effect.andThen_congr _ fun object sofar world goesOn =>
        ih leaves.2 object sofar world goesOn

theorem effectSteps_leaves {step : Mutator σ} (full : step.Full) (context : Context) (review : Review)
    (more : List (Mutator σ)) (object : Object) (sofar : Mutation) (world : World σ)
    (goesOn : sofar.stop = false) :
    effectSteps (step.leaves ++ more) context review object sofar world =
      effectSteps (step :: more) context review object sofar world := by
  induction full generalizing more object sofar world with
  | leaf call => rfl
  | chain logger nonempty full ih =>
    rw [leaves, effectSteps_leavesOf ih more object sofar world goesOn,
      effectSteps_chain logger nonempty more context review object sofar world goesOn]

theorem effect_flat {steps : List (Mutator σ)} (full : ∀ step ∈ steps, step.Full)
    (logger flatLogger : Logger) (context : Context) (review : Review) (object : Object)
    (world : World σ) : (chain logger steps).effect context review object world =
      (chain flatLogger (leavesOf steps)).effect context review object world := by
  -- with nothing behind them the leaves stand for the steps themselves
  have flat : effectSteps (leavesOf steps ++ []) context review object {} world =
      effectSteps (steps ++ []) context review object {} world :=
    effectSteps_leavesOf (fun step mem => effectSteps_leaves (full step mem) context review) []
      object {} world rfl
  rw [List.append_nil, List.append_nil] at flat
  rw [effect, effect, flat]

/-! ## Calls of leaves -/

/-- A call that was made of a leaf, with the object and the world it was handed. -/
structure LeafCall (σ : Type) where
  leaf : Leaf σ
  object : Object
  world : World σ

def noting {κ : Type} (entry : Context → Review → Object → World σ → κ) (call : Leaf σ) :
    Leaf (σ × List κ) := fun context review object world =>
  let done := call context review object world.unlogged
  { outcome := done.outcome
    object := done.object
    world := done.world.withOwn
      (done.world.own, world.own.2 ++ [entry context review object world.unlogged])
    remarks := done.remarks }

section

variable {κ : Type} {entry : Leaf σ → Context → Review → Object → World σ → κ} {P : κ → Prop}
  {context : Context} {review : Review}

mutual

/-- What every leaf notes is noted of a run, and nothing else. -/
theorem effect_noting (holds : ∀ call object world, P (entry call context review object world))
    (mutator : Mutator σ) (object : Object) {world : World (σ × List κ)}
    (before : ∀ noted ∈ world.own.2, P noted) :
    ∀ noted ∈ ((mutator.mapLeaves fun call => noting (entry call) call).effect context review object
      world).world.own.2, P noted := by
  cases mutator with
  | leaf call =>
    refine List.forall_mem_append.2 ⟨before, List.forall_mem_singleton.2 ?_⟩
    exact holds call object world.unlogged
  | chain logger steps =>
    rw [mapLeaves, effect]
    exact effectSteps_noting holds steps object {} before

theorem effectSteps_noting
    (holds : ∀ call object world, P (entry call context review object world))
    (steps : List (Mutator σ)) (object : Object) (sofar : Mutation) {world : World (σ × List κ)}
    (before : ∀ noted ∈ world.own.2, P noted) :
    ∀ noted ∈ (effectSteps (mapLeavesOf (fun call => noting (entry call) call) steps) context review
      object sofar world).world.own.2, P noted := by
  cases steps with
  | nil => exact before
  | cons step steps =>
    rw [mapLeavesOf, effectSteps]
    split
    · exact before
    · exact Effect.world_andThen (P := fun world : World (σ × List κ) => ∀ noted ∈ world.own.2, P noted)
        (effect_noting holds step _ before)
        fun object sofar world before => effectSteps_noting holds steps object sofar before

end

end

def logging (call : Leaf σ) : Leaf (σ × List (LeafCall σ)) :=
  noting (fun _ _ object world => ⟨call, object, world⟩) call

def logged : Mutator σ → Mutator (σ × List (LeafCall σ)) :=
  mapLeaves logging

def loggedSteps : List (Mutator σ) → List (Mutator (σ × List (LeafCall σ))) :=
  mapLeavesOf logging

theorem logged_chain (logger : Logger) (steps : List (Mutator σ)) :
    (chain logger steps).logged = chain logger (loggedSteps steps) :=
  rfl

theorem loggedSteps_cons (step : Mutator σ) (steps : List (Mutator σ)) :
    loggedSteps (step :: steps) = step.logged :: loggedSteps steps :=
  rfl

def calls (mutator : Mutator σ) (context : Context) (review : Review) (object : Object)
    (state : State σ) : List (LeafCall σ) :=
  (mutator.logged.run context review object
    ⟨state.world.withOwn (state.world.own, []), state.telemetry⟩).state.world.own.2

def Effect.unlogged (effect : Effect (σ × List (LeafCall σ))) : Effect σ :=
  ⟨effect.outcome, effect.object, effect.world.unlogged⟩

theorem Effect.unlogged_andThen {effect : Effect (σ × List (LeafCall σ))} {sofar : Mutation}
    {object : Object}
    {next : Object → Mutation → World (σ × List (LeafCall σ)) → Effect (σ × List (LeafCall σ))}
    {next' : Object → Mutation → World σ → Effect σ}
    (same : ∀ object sofar world, (next object sofar world).unlogged =
      next' object sofar world.unlogged) :
    (effect.andThen sofar object next).unlogged = effect.unlogged.andThen sofar object next' := by
  by_cases succeeded : ∃ mutation, effect.outcome = .done mutation
  · obtain ⟨mutation, done⟩ := succeeded
    cases stop : mutation.stop with
    | true =>
      rw [effect.andThen_of_stop done stop, effect.unlogged.andThen_of_stop done stop]
      rfl
    | false =>
      rw [effect.andThen_of_done done stop, effect.unlogged.andThen_of_done done stop]
      exact same _ _ _
  · have failed := not_exists.1 succeeded
    rw [effect.andThen_of_failure failed, effect.unlogged.andThen_of_failure failed]
    rfl

mutual

theorem effect_logged (mutator : Mutator σ) (context : Context) (review : Review) (object : Object)
    (world : World (σ × List (LeafCall σ))) :
    (mutator.logged.effect context review object world).unlogged =
      mutator.effect context review object world.unlogged := by
  cases mutator with
  | leaf call => rfl
  | chain logger steps =>
    rw [logged_chain, effect, effect]
    exact effectSteps_logged steps context review object {} world

theorem effectSteps_logged (steps : List (Mutator σ)) (context : Context) (review : Review)
    (object : Object) (sofar : Mutation) (world : World (σ × List (LeafCall σ))) :
    (effectSteps (loggedSteps steps) context review object sofar world).unlogged =
      effectSteps steps context review object sofar world.unlogged := by
  cases steps with
  | nil => rfl
  | cons step steps =>
    rw [loggedSteps_cons, effectSteps, effectSteps]
    have isDone : context.isDone world.unlogged = context.isDone world := rfl
    rw [isDone]
    split
    · rfl
    · rw [Effect.unlogged_andThen fun object sofar world =>
        effectSteps_logged steps context review object sofar world, effect_logged]

end

/-- A run whose calls are written down is the run itself. -/
theorem run_logged (mutator : Mutator σ) (context : Context) (review : Review) (object : Object)
    (state : State (σ × List (LeafCall σ))) :
    (mutator.logged.run context review object state).effect.unlogged =
      (mutator.run context review object ⟨state.world.unlogged, state.telemetry⟩).effect := by
  rw [effect_run, effect_run, effect_logged]

theorem calls_eq (mutator : Mutator σ) (context : Context) (review : Review) (object : Object)
    (state : State σ) : mutator.calls context review object state =
      (mutator.logged.effect context review object
        (state.world.withOwn (state.world.own, []))).world.own.2 :=
  congrArg (fun effect => effect.world.own.2) (effect_run mutator.logged context review object _)

theorem calls_flat {steps : List (Mutator σ)} (full : ∀ step ∈ steps, step.Full)
    (logger flatLogger : Logger) (context : Context) (review : Review) (object : Object)
    (state : State σ) : (chain logger steps).calls context review object state =
      (chain flatLogger (leavesOf steps)).calls context review object state := by
  have logged_full : ∀ step ∈ loggedSteps steps, step.Full := fun logged mem => by
    rw [loggedSteps, mapLeavesOf_eq] at mem
    obtain ⟨step, inSteps, rfl⟩ := List.mem_map.1 mem
    exact (full step inSteps).mapLeaves logging
  have leaves : leavesOf (loggedSteps steps) = loggedSteps (leavesOf steps) :=
    leavesOf_mapLeavesOf logging steps
  rw [calls_eq, calls_eq, logged_chain, logged_chain, effect_flat logged_full logger flatLogger,
    leaves]

end Mutator

end Admission
