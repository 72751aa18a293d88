import Admission.Proofs.Webhook.ValidatorNesting
import Admission.Proofs.Webhook.Visits

/-! Trees of chains of validators when the request is over. A tree visits its leaves from left to
right and finds what the tour of them tells. -/

set_option autoImplicit false

namespace Admission

namespace Validator

variable {σ : Type}

/-- What stands in a chain for a leaf or a gap. -/
def ofSlot : Option (Leaf σ) → Validator σ
  | some call => .leaf call
  | none => .chain .silent []

mutual

theorem effectSteps_slots (step : Validator σ) (more : List (Validator σ)) (context : Context)
    (review : Review) (object : Object) (warnings : List String) (world : World σ) :
    effectSteps (step.nest.slots.map ofSlot ++ more) context review object warnings world =
      effectSteps (step :: more) context review object warnings world := by
  cases step with
  | leaf call => rfl
  | chain logger steps =>
    cases steps with
    | nil => rfl
    | cons step steps =>
      exact (effectSteps_slotsOf (step :: steps) more context review object warnings world).trans
        (effectSteps_chain logger (List.cons_ne_nil _ _) more context review object warnings world)

theorem effectSteps_slotsOf (steps more : List (Validator σ)) (context : Context) (review : Review)
    (object : Object) (warnings : List String) (world : World σ) :
    effectSteps ((Nest.slotsOf (nestOf steps)).map ofSlot ++ more) context review object warnings
        world =
      effectSteps (steps ++ more) context review object warnings world := by
  cases steps with
  | nil => rfl
  | cons step steps =>
    simp only [nestOf, Nest.slotsOf, List.map_append, List.append_assoc, effectSteps_slots,
      List.cons_append, effectSteps, effectSteps_slotsOf steps]

end

namespace Call

variable (made : Call σ)

def warnings : List String :=
  match made.outcome with
  | .done validation => validation.warnings
  | _ => []

def ends : Bool :=
  match made.outcome with
  | .done validation => validation.ends
  | _ => true

variable {made} {validation : Validation}

theorem warnings_of_done (done : made.outcome = .done validation) :
    made.warnings = validation.warnings := by
  rw [warnings, done]

theorem ends_of_done (done : made.outcome = .done validation) : made.ends = validation.ends := by
  rw [ends, done]

theorem ends_of_failure (failed : ∀ validation, made.outcome ≠ .done validation) :
    made.ends = true := by
  rw [ends]
  split
  · rename_i validation done
    exact absurd done (failed validation)
  · rfl

end Call

def LeafCall.made (call : LeafCall σ) (context : Context) (review : Review) : Call σ :=
  call.leaf context review call.object call.world

def LeafCall.ofVisit (object : Object) (visit : Leaf σ × World σ) : LeafCall σ :=
  ⟨visit.1, object, visit.2⟩

/-- All leaves are handed one object, and the world. -/
def line (context : Context) (review : Review) (object : Object) : Line (Leaf σ) (World σ) where
  isDone world := context.isDone world
  ends leaf world := ((LeafCall.ofVisit object (leaf, world)).made context review).ends
  next leaf world := ((LeafCall.ofVisit object (leaf, world)).made context review).world

section

variable (context : Context) (review : Review)

def warningsOf (calls : List (LeafCall σ)) : List String :=
  calls.flatMap fun call => (call.made context review).warnings

/-- What calls of leaves lead to that come to an end in one way or another, behind steps that gave
`warnings`. -/
inductive Tells (warnings : List String) (calls : List (LeafCall σ))
    (outcome : Outcome Failure Validation) : Finish → Prop where
  | through (accepted : outcome = .done { warnings := warnings ++ warningsOf context review calls }) :
    Tells warnings calls outcome .through
  | cut (cancelled : outcome = .failed (.cancelled .validating)) :
    Tells warnings calls outcome .cut
  | failed (before : List (LeafCall σ)) {last : LeafCall σ} (calls_eq : calls = before ++ [last])
    (failed : ∀ validation, (last.made context review).outcome ≠ .done validation)
    (same : outcome = (last.made context review).outcome) : Tells warnings calls outcome .ended
  | stopped (before : List (LeafCall σ)) {last : LeafCall σ} {validation : Validation}
    (calls_eq : calls = before ++ [last])
    (done : (last.made context review).outcome = .done validation) (ends : validation.ends = true)
    (same : outcome = .done
      { validation with warnings := warnings ++ warningsOf context review calls }) :
    Tells warnings calls outcome .ended

end

theorem Tells.behind {context : Context} {review : Review} {warnings : List String}
    {calls : List (LeafCall σ)} {outcome : Outcome Failure Validation} {finish : Finish}
    (call : LeafCall σ)
    (tells : Tells context review (warnings ++ (call.made context review).warnings) calls outcome
      finish) : Tells context review warnings (call :: calls) outcome finish := by
  have all : warnings ++ (call.made context review).warnings ++ warningsOf context review calls =
      warnings ++ warningsOf context review (call :: calls) := by
    rw [warningsOf, warningsOf, List.flatMap_cons, List.append_assoc]
  cases tells with
  | through accepted => exact .through (all ▸ accepted)
  | cut cancelled => exact .cut cancelled
  | failed before calls_eq failed same =>
    exact .failed (call :: before) (congrArg (call :: ·) calls_eq) failed same
  | stopped before calls_eq done ends same =>
    exact .stopped (call :: before) (congrArg (call :: ·) calls_eq) done ends (all ▸ same)

/-- Steps behind others that gave `warnings` find what a tour tells, and log its visits behind those
from before. -/
structure Toured (context : Context) (review : Review) (object : Object) (warnings : List String)
    (before : List (LeafCall σ)) (effect : Effect (σ × List (LeafCall σ)))
    (tour : Tour (Leaf σ) (World σ)) : Prop where
  log : effect.world.own.2 = before ++ tour.visits.map (LeafCall.ofVisit object)
  tells : Tells context review warnings (tour.visits.map (LeafCall.ofVisit object)) effect.outcome
    tour.finish

theorem toured_leaf (leaf : Leaf σ) {slots : List (Option (Leaf σ))} {context : Context}
    {review : Review} {object : Object} {warnings : List String}
    {world : World (σ × List (LeafCall σ))} (notDone : context.isDone world = false)
    {next : List String → World (σ × List (LeafCall σ)) → Effect (σ × List (LeafCall σ))}
    (rest : ∀ warnings world, Toured context review object warnings world.own.2 (next warnings world)
      ((line context review object).tour slots world.unlogged)) :
    Toured context review object warnings world.own.2
      (((ofSlot ((some leaf).map logging)).effect context review object world).andThen warnings next)
      ((line context review object).tour (some leaf :: slots) world.unlogged) := by
  let call : LeafCall σ := ⟨leaf, object, world.unlogged⟩
  have notDone : (line context review object).isDone world.unlogged = false := notDone
  generalize made_eq : call.made context review = made
  have step : (ofSlot ((some leaf).map logging)).effect context review object world =
      ⟨made.outcome, made.world.withOwn (made.world.own, world.own.2 ++ [call])⟩ := by
    rw [← made_eq]; rfl
  have ends_eq : (line context review object).ends leaf world.unlogged = made.ends :=
    congrArg Call.ends made_eq
  have next_eq : (line context review object).next leaf world.unlogged = made.world :=
    congrArg Call.world made_eq
  rw [step]
  -- the call fails, ends the chain or lets it go on, and the tour visits the leaf and does the same
  by_cases succeeded : ∃ validation, made.outcome = .done validation
  · obtain ⟨validation, done⟩ := succeeded
    have warnings_eq : validation.warnings = (call.made context review).warnings := by
      rw [made_eq, Call.warnings_of_done done]
    cases ends : validation.ends with
    | true =>
      have last := ends_eq.trans ((Call.ends_of_done done).trans ends)
      rw [Effect.andThen_of_end ⟨_, _⟩ done ends, Line.tour_of_ends notDone last]
      have all : warningsOf context review [call] = validation.warnings :=
        (List.append_nil _).trans warnings_eq.symm
      refine ⟨rfl, .stopped [] rfl ((congrArg Call.outcome made_eq).trans done) ends ?_⟩
      rw [Validation.behind, ← all]
      rfl
    | false =>
      have goesOn := ends_eq.trans ((Call.ends_of_done done).trans ends)
      rw [Effect.andThen_of_done ⟨_, _⟩ done ends, Line.tour_of_goesOn notDone goesOn, next_eq,
        warnings_eq]
      obtain ⟨log, tells⟩ := rest (warnings ++ (call.made context review).warnings)
        (made.world.withOwn (made.world.own, world.own.2 ++ [call]))
      exact ⟨log.trans (List.append_assoc ..), tells.behind call⟩
  · have failed := not_exists.1 succeeded
    have last := ends_eq.trans (Call.ends_of_failure failed)
    rw [Effect.andThen_of_failure ⟨_, _⟩ failed, Line.tour_of_ends notDone last]
    exact ⟨rfl, .failed [] rfl (made_eq ▸ failed) (congrArg Call.outcome made_eq).symm⟩

/-- Leaves and gaps in a chain find what a tour of them tells, and log its visits. -/
theorem effectSteps_tour (slots : List (Option (Leaf σ))) (context : Context) (review : Review)
    (object : Object) (warnings : List String) (world : World (σ × List (LeafCall σ))) :
    Toured context review object warnings world.own.2
      (effectSteps (slots.map fun slot => ofSlot (slot.map logging)) context review object warnings
        world)
      ((line context review object).tour slots world.unlogged) := by
  induction slots generalizing warnings world with
  | nil =>
    have accepted : (Outcome.done { warnings } : Outcome Failure Validation) =
        .done { warnings := warnings ++ warningsOf context review ([] : List (LeafCall σ)) } := by
      rw [warningsOf, List.flatMap_nil, List.append_nil]
    exact ⟨(List.append_nil _).symm, .through accepted⟩
  | cons slot slots ih =>
    rw [List.map_cons, effectSteps]
    cases isDone : context.isDone world with
    | true =>
      have ended : (line context review object).isDone world.unlogged = true := isDone
      rw [Line.tour_of_isDone _ _ ended]
      exact ⟨(List.append_nil _).symm, .cut rfl⟩
    | false =>
      rw [if_neg Bool.false_ne_true]
      cases slot with
      | none =>
        -- a chain without steps accepts all and leaves the world as it is
        have nothing : (ofSlot (none.map (logging (σ := σ)))).effect context review object world =
          ⟨.done {}, world⟩ := rfl
        have notDone : (line context review object).isDone world.unlogged = false := isDone
        rw [nothing, Effect.andThen_of_done ⟨_, _⟩ rfl rfl, List.append_nil, Line.tour_gap notDone]
        exact ih warnings world
      | some leaf => exact toured_leaf leaf isDone ih

/-! ## Runs of trees -/

section

variable (logger : Logger) (steps : List (Validator σ)) (context : Context) (review : Review)
  (object : Object) (state : State σ)

def tourOf : Tour (Leaf σ) (World σ) :=
  (line context review object).tour (Nest.slotsOf (nestOf steps)) state.world

theorem calls_tour : (chain logger steps).calls context review object state =
      (tourOf steps context review object state).visits.map (.ofVisit object) ∧
    Tells context review [] ((chain logger steps).calls context review object state)
      ((chain logger steps).run context review object state).outcome
      (tourOf steps context review object state).finish := by
  let world : World (σ × List (LeafCall σ)) := state.world.withOwn (state.world.own, [])
  have flat : effectSteps ((Nest.slotsOf (nestOf steps)).map fun slot => ofSlot (slot.map logging))
      context review object [] world =
        (chain logger steps).logged.effect context review object world := by
    have replaced :=
      effectSteps_slotsOf (loggedSteps steps) [] context review object [] world
    rw [List.append_nil, List.append_nil, loggedSteps, nestOf_mapLeavesOf, Nest.slotsOf_map,
      List.map_map] at replaced
    exact replaced
  have same := (effect_logged (chain logger steps) context review object world).trans
    (effect_run (chain logger steps) context review object state).symm
  obtain ⟨log, tells⟩ := effectSteps_tour (Nest.slotsOf (nestOf steps)) context review object
    [] world
  rw [flat] at log tells
  have calls := (calls_eq (chain logger steps) context review object state).trans log
  have outcome := congrArg Effect.outcome same
  simp only [Effect.unlogged, Run.effect] at outcome
  rw [outcome] at tells
  rw [calls]
  exact ⟨rfl, tells⟩

variable {logger steps context review object state}

theorem isDone_of_mem_calls {call : LeafCall σ}
    (mem : call ∈ (chain logger steps).calls context review object state) :
    context.isDone call.world = false := by
  rw [(calls_tour logger steps context review object state).1] at mem
  obtain ⟨visit, visited, rfl⟩ := List.mem_map.1 mem
  exact Line.not_isDone_of_mem _ visited

theorem calls_isPrefix :
    ((chain logger steps).calls context review object state).map LeafCall.leaf <+:
      ((chain logger steps).nest.seats false).map Seat.leaf := by
  rw [(calls_tour logger steps context review object state).1, List.map_map, nest, Nest.seats,
    ← Nest.seatsIn_slotsOf]
  exact Line.visits_isPrefix _ _ _ _

theorem run_of_isDone (isDone : context.isDone state.world = true) :
    (chain logger steps).calls context review object state = [] ∧
    ((chain logger steps).run context review object state).outcome =
      if steps.isEmpty then .done {} else .failed (.cancelled .validating) := by
  have ended : (line context review object).isDone state.world = true := isDone
  refine ⟨?_, ?_⟩
  · rw [(calls_tour logger steps context review object state).1, tourOf, Line.tour_of_isDone _ _ ended]
    rfl
  · cases steps with
    | nil => rfl
    | cons step steps => rw [run, runSteps_of_isDone isDone]; rfl

/-- A call behind which the request is over is the last one, and the tree ends as that call did, or
else at its next step if there is one. -/
theorem run_of_interrupted {before after : List (LeafCall σ)} {call : LeafCall σ}
    (calls : (chain logger steps).calls context review object state = before ++ call :: after)
    (isDone : context.isDone (call.made context review).world = true) :
    after = [] ∧ ∃ followed,
      ((chain logger steps).nest.seats false)[before.length]? = some ⟨call.leaf, followed⟩ ∧
      Tells context review [] (before ++ [call])
        ((chain logger steps).run context review object state).outcome
        (.interrupted (call.made context review).ends followed) := by
  obtain ⟨visited, tells⟩ := calls_tour logger steps context review object state
  rw [calls] at visited tells
  obtain ⟨visits, visits', tour_eq, rfl, rest_eq⟩ := List.append_eq_map_iff.1 visited
  obtain ⟨visit, later, rfl, rfl, rfl⟩ := List.map_eq_cons_iff.1 rest_eq
  obtain ⟨rfl, -, followed, seat, finish⟩ :=
    (line context review object).interrupted tour_eq isDone
  rw [tourOf, finish] at tells
  refine ⟨rfl, followed, ?_, tells⟩
  rw [nest, Nest.seats, ← Nest.seatsIn_slotsOf, List.length_map]
  exact seat

end

end Validator

end Admission
