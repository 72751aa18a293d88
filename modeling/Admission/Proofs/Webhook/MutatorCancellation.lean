import Admission.Proofs.Webhook.MutatorNesting
import Admission.Proofs.Webhook.Visits

/-! Trees of chains of mutators when the request is over. A tree visits its leaves from left to right
and does what the tour of them tells. -/

set_option autoImplicit false

namespace Admission

namespace Mutator

variable {σ : Type}

/-- What stands in a chain for a leaf or a gap. -/
def ofSlot : Option (Leaf σ) → Mutator σ
  | some call => .leaf call
  | none => .chain .silent []

mutual

theorem effectSteps_slots (step : Mutator σ) (more : List (Mutator σ)) (context : Context)
    (review : Review) (object : Object) (sofar : Mutation) (world : World σ)
    (goesOn : sofar.stop = false) :
    effectSteps (step.nest.slots.map ofSlot ++ more) context review object sofar world =
      effectSteps (step :: more) context review object sofar world := by
  cases step with
  | leaf call => rfl
  | chain logger steps =>
    cases steps with
    | nil => rfl
    | cons step steps =>
      exact (effectSteps_slotsOf (step :: steps) more context review object sofar world goesOn).trans
        (effectSteps_chain logger (List.cons_ne_nil _ _) more context review object sofar world goesOn)

theorem effectSteps_slotsOf (steps more : List (Mutator σ)) (context : Context) (review : Review)
    (object : Object) (sofar : Mutation) (world : World σ) (goesOn : sofar.stop = false) :
    effectSteps ((Nest.slotsOf (nestOf steps)).map ofSlot ++ more) context review object sofar world =
      effectSteps (steps ++ more) context review object sofar world := by
  cases steps with
  | nil => rfl
  | cons step steps =>
    rw [nestOf, Nest.slotsOf, List.map_append, List.append_assoc,
      effectSteps_slots step _ context review object sofar world goesOn, List.cons_append,
      effectSteps, effectSteps]
    split
    · rfl
    · exact Effect.andThen_congr _ fun object sofar world goesOn =>
        effectSteps_slotsOf steps more context review object sofar world goesOn

end

namespace Call

variable (made : Call σ)

def product : Object :=
  match made.outcome with
  | .done mutation => mutation.replacement.getD made.object
  | _ => made.object

def warnings : List String :=
  match made.outcome with
  | .done mutation => mutation.warnings
  | _ => []

def ends : Bool :=
  match made.outcome with
  | .done mutation => mutation.stop
  | _ => true

variable {made} {mutation : Mutation}

theorem product_of_done (done : made.outcome = .done mutation) :
    made.product = mutation.replacement.getD made.object := by
  rw [product, done]

theorem warnings_of_done (done : made.outcome = .done mutation) :
    made.warnings = mutation.warnings := by
  rw [warnings, done]

theorem ends_of_done (done : made.outcome = .done mutation) : made.ends = mutation.stop := by
  rw [ends, done]

theorem ends_of_failure (failed : ∀ mutation, made.outcome ≠ .done mutation) :
    made.ends = true := by
  rw [ends]
  split
  · rename_i mutation done
    exact absurd done (failed mutation)
  · rfl

end Call

def LeafCall.made (call : LeafCall σ) (context : Context) (review : Review) : Call σ :=
  call.leaf context review call.object call.world

def LeafCall.ofVisit (visit : Leaf σ × (Object × World σ)) : LeafCall σ :=
  ⟨visit.1, visit.2.1, visit.2.2⟩

/-- A leaf is handed the object as it is by then, and the world. -/
def line (context : Context) (review : Review) : Line (Leaf σ) (Object × World σ) where
  isDone state := context.isDone state.2
  ends leaf state := ((LeafCall.ofVisit (leaf, state)).made context review).ends
  next leaf state :=
    let made := (LeafCall.ofVisit (leaf, state)).made context review
    (made.product, made.world)

section

variable (context : Context) (review : Review)

def warningsOf (calls : List (LeafCall σ)) : List String :=
  calls.flatMap fun call => (call.made context review).warnings

/-- The steps of a chain succeeded, with the `final` object and all the warnings of the calls behind
`warnings` from before; the object that the chain was handed was `left` behind. -/
def Adds (warnings : List String) (calls : List (LeafCall σ)) (final : Object) (stop : Bool)
    (outcome : Outcome Failure Mutation) (left : Object) : Prop :=
  ∃ result, outcome = .done result ∧ result.stop = stop ∧
    result.warnings = warnings ++ warningsOf context review calls ∧
    result.replacement.getD left = final

/-- What calls of leaves lead to that come to an end in one way or another, behind steps that gave
`warnings`. -/
inductive Tells (warnings : List String) (calls : List (LeafCall σ)) (final : Object)
    (outcome : Outcome Failure Mutation) (left : Object) : Finish → Prop where
  | through (adds : Adds context review warnings calls final false outcome left) :
    Tells warnings calls final outcome left .through
  | cut (cancelled : outcome = .failed (.cancelled .mutating)) :
    Tells warnings calls final outcome left .cut
  | failed (before : List (LeafCall σ)) {last : LeafCall σ} (calls_eq : calls = before ++ [last])
    (failed : ∀ mutation, (last.made context review).outcome ≠ .done mutation)
    (same : outcome = (last.made context review).outcome) :
    Tells warnings calls final outcome left .ended
  | stopped (before : List (LeafCall σ)) {last : LeafCall σ} {mutation : Mutation}
    (calls_eq : calls = before ++ [last])
    (done : (last.made context review).outcome = .done mutation) (stop : mutation.stop = true)
    (adds : Adds context review warnings calls final true outcome left) :
    Tells warnings calls final outcome left .ended

end

section

variable {context : Context} {review : Review} {warnings : List String} {calls : List (LeafCall σ)}
  {final left : Object} {outcome : Outcome Failure Mutation}

theorem Adds.behind {stop : Bool} (call : LeafCall σ)
    (adds : Adds context review (warnings ++ (call.made context review).warnings) calls final stop
      outcome left) : Adds context review warnings (call :: calls) final stop outcome left := by
  obtain ⟨result, done, stops, all, product⟩ := adds
  refine ⟨result, done, stops, ?_, product⟩
  rw [all, warningsOf, warningsOf, List.flatMap_cons, List.append_assoc]

theorem Tells.behind {finish : Finish} (call : LeafCall σ)
    (tells : Tells context review (warnings ++ (call.made context review).warnings) calls final
      outcome left finish) :
    Tells context review warnings (call :: calls) final outcome left finish := by
  cases tells with
  | through adds => exact .through (adds.behind call)
  | cut cancelled => exact .cut cancelled
  | failed before calls_eq failed same =>
    exact .failed (call :: before) (congrArg (call :: ·) calls_eq) failed same
  | stopped before calls_eq done stop adds =>
    exact .stopped (call :: before) (congrArg (call :: ·) calls_eq) done stop (adds.behind call)

end

/-- Steps behind others that gave `warnings` do what a tour tells, and log its visits behind those
from before. -/
structure Toured (context : Context) (review : Review) (warnings : List String)
    (before : List (LeafCall σ)) (effect : Effect (σ × List (LeafCall σ)))
    (tour : Tour (Leaf σ) (Object × World σ)) : Prop where
  log : effect.world.own.2 = before ++ tour.visits.map LeafCall.ofVisit
  tells : Tells context review warnings (tour.visits.map LeafCall.ofVisit) tour.final.1 effect.outcome
    effect.object tour.finish

theorem toured_leaf (leaf : Leaf σ) {slots : List (Option (Leaf σ))} {context : Context}
    {review : Review} {object : Object} {sofar : Mutation} {world : World (σ × List (LeafCall σ))}
    (notDone : context.isDone world = false)
    {next : Object → Mutation → World (σ × List (LeafCall σ)) → Effect (σ × List (LeafCall σ))}
    (rest : ∀ object sofar world, sofar.stop = false →
      Toured context review sofar.warnings world.own.2 (next object sofar world)
        ((line context review).tour slots (sofar.replacement.getD object, world.unlogged))) :
    Toured context review sofar.warnings world.own.2
      (((ofSlot ((some leaf).map logging)).effect context review (sofar.replacement.getD object)
        world).andThen sofar object next)
      ((line context review).tour (some leaf :: slots)
        (sofar.replacement.getD object, world.unlogged)) := by
  let call : LeafCall σ := ⟨leaf, sofar.replacement.getD object, world.unlogged⟩
  have notDone : (line context review).isDone
    (sofar.replacement.getD object, world.unlogged) = false := notDone
  generalize made_eq : call.made context review = made
  have step : (ofSlot ((some leaf).map logging)).effect context review
      (sofar.replacement.getD object) world = ⟨made.outcome, made.object,
        made.world.withOwn (made.world.own, world.own.2 ++ [call])⟩ := by
    rw [← made_eq]; rfl
  have ends_eq : (line context review).ends leaf
    (sofar.replacement.getD object, world.unlogged) = made.ends := congrArg Call.ends made_eq
  have next_eq : (line context review).next leaf
      (sofar.replacement.getD object, world.unlogged) = (made.product, made.world) := by
    rw [← made_eq]; rfl
  rw [step]
  -- the call fails, ends the chain or lets it go on, and the tour visits the leaf and does the same
  by_cases succeeded : ∃ mutation, made.outcome = .done mutation
  · obtain ⟨mutation, done⟩ := succeeded
    have product : (sofar.add made.object mutation).replacement.getD
        (sofar.kept object made.object) = made.product := by
      rw [Mutation.current_add, Call.product_of_done done]
    have warnings : (sofar.add made.object mutation).warnings =
        sofar.warnings ++ (call.made context review).warnings := by
      rw [made_eq, Call.warnings_of_done done, Mutation.add]
    cases stop : mutation.stop with
    | true =>
      have ends := ends_eq.trans ((Call.ends_of_done done).trans stop)
      rw [Effect.andThen_of_stop ⟨_, _, _⟩ done stop, Line.tour_of_ends notDone ends, next_eq]
      refine ⟨rfl, .stopped [] rfl ((congrArg Call.outcome made_eq).trans done)
        stop ⟨_, rfl, stop, ?_, product⟩⟩
      exact warnings.trans (congrArg (sofar.warnings ++ ·) (List.append_nil _).symm)
    | false =>
      have goesOn := ends_eq.trans ((Call.ends_of_done done).trans stop)
      rw [Effect.andThen_of_done ⟨_, _, _⟩ done stop, Line.tour_of_goesOn notDone goesOn, next_eq]
      obtain ⟨log, tells⟩ := rest (sofar.kept object made.object) (sofar.add made.object mutation)
        (made.world.withOwn (made.world.own, world.own.2 ++ [call])) stop
      rw [product, warnings] at tells
      rw [product] at log
      exact ⟨log.trans (List.append_assoc ..), tells.behind call⟩
  · have failed := not_exists.1 succeeded
    have ends := ends_eq.trans (Call.ends_of_failure failed)
    rw [Effect.andThen_of_failure ⟨_, _, _⟩ failed, Line.tour_of_ends notDone ends]
    exact ⟨rfl, .failed [] rfl (made_eq ▸ failed) (congrArg Call.outcome made_eq).symm⟩

/-- Leaves and gaps in a chain do what a tour of them tells, and log its visits. -/
theorem effectSteps_tour (slots : List (Option (Leaf σ))) (context : Context) (review : Review)
    (object : Object) (sofar : Mutation) (world : World (σ × List (LeafCall σ)))
    (goesOn : sofar.stop = false) :
    Toured context review sofar.warnings world.own.2
      (effectSteps (slots.map fun slot => ofSlot (slot.map logging)) context review object sofar world)
      ((line context review).tour slots (sofar.replacement.getD object, world.unlogged)) := by
  induction slots generalizing object sofar world with
  | nil =>
    have warnings : sofar.warnings = sofar.warnings ++ [] := (List.append_nil _).symm
    exact ⟨(List.append_nil _).symm, .through ⟨sofar, rfl, goesOn, warnings, rfl⟩⟩
  | cons slot slots ih =>
    rw [List.map_cons, effectSteps]
    cases isDone : context.isDone world with
    | true =>
      have ended : (line context review).isDone
        (sofar.replacement.getD object, world.unlogged) = true := isDone
      rw [Line.tour_of_isDone _ _ ended]
      exact ⟨(List.append_nil _).symm, .cut rfl⟩
    | false =>
      rw [if_neg Bool.false_ne_true]
      cases slot with
      | none =>
        -- a chain without steps leaves all as it is
        have nothing : (ofSlot (none.map (logging (σ := σ)))).effect context review
            (sofar.replacement.getD object) world =
              ⟨.done {}, sofar.replacement.getD object, world⟩ := rfl
        have notDone : (line context review).isDone
          (sofar.replacement.getD object, world.unlogged) = false := isDone
        rw [nothing, Effect.andThen_of_done ⟨_, _, _⟩ rfl rfl, Mutation.kept_nothing,
          Mutation.add_nothing goesOn, Line.tour_gap notDone]
        exact ih object sofar world goesOn
      | some leaf => exact toured_leaf leaf isDone ih

/-! ## Runs of trees -/

section

variable (logger : Logger) (steps : List (Mutator σ)) (context : Context) (review : Review)
  (object : Object) (state : State σ)

def tourOf : Tour (Leaf σ) (Object × World σ) :=
  (line context review).tour (Nest.slotsOf (nestOf steps)) (object, state.world)

theorem calls_tour : (chain logger steps).calls context review object state =
      (tourOf steps context review object state).visits.map .ofVisit ∧
    Tells context review [] ((chain logger steps).calls context review object state)
      (tourOf steps context review object state).final.1
      ((chain logger steps).run context review object state).outcome
      ((chain logger steps).run context review object state).object
      (tourOf steps context review object state).finish := by
  let world : World (σ × List (LeafCall σ)) := state.world.withOwn (state.world.own, [])
  -- a tree does what its leaves and gaps do in a row, and the notes of the calls change nothing of it
  have flat : effectSteps ((Nest.slotsOf (nestOf steps)).map fun slot => ofSlot (slot.map logging))
      context review object {} world =
        (chain logger steps).logged.effect context review object world := by
    have replaced :=
      effectSteps_slotsOf (loggedSteps steps) [] context review object {} world rfl
    rw [List.append_nil, List.append_nil, loggedSteps, nestOf_mapLeavesOf, Nest.slotsOf_map,
      List.map_map] at replaced
    exact replaced
  have same := (effect_logged (chain logger steps) context review object world).trans
    (effect_run (chain logger steps) context review object state).symm
  obtain ⟨log, tells⟩ := effectSteps_tour (Nest.slotsOf (nestOf steps)) context review object
    {} world rfl
  rw [flat] at log tells
  have calls := (calls_eq (chain logger steps) context review object state).trans log
  have outcome := congrArg Effect.outcome same
  have left := congrArg Effect.object same
  simp only [Effect.unlogged, Run.effect] at outcome left
  rw [outcome, left] at tells
  rw [calls]
  exact ⟨rfl, tells⟩

variable {logger steps context review object state}

theorem isDone_of_mem_calls {call : LeafCall σ}
    (mem : call ∈ (chain logger steps).calls context review object state) :
    context.isDone call.world = false := by
  rw [(calls_tour logger steps context review object state).1] at mem
  obtain ⟨visit, visited, rfl⟩ := List.mem_map.1 mem
  exact Line.not_isDone_of_mem _ visited

theorem calls_isPrefix :
    ((chain logger steps).calls context review object state).map LeafCall.leaf <+:
      ((chain logger steps).nest.seats false).map Seat.leaf := by
  rw [(calls_tour logger steps context review object state).1, List.map_map, nest, Nest.seats,
    ← Nest.seatsIn_slotsOf]
  exact Line.visits_isPrefix _ _ _ _

theorem run_of_isDone (isDone : context.isDone state.world = true) :
    (chain logger steps).calls context review object state = [] ∧
    ((chain logger steps).run context review object state).outcome =
      if steps.isEmpty then .done {} else .failed (.cancelled .mutating) := by
  have ended : (line context review).isDone (object, state.world) = true := isDone
  refine ⟨?_, ?_⟩
  · rw [(calls_tour logger steps context review object state).1, tourOf, Line.tour_of_isDone _ _ ended]
    rfl
  · cases steps with
    | nil => rfl
    | cons step steps => rw [run, runSteps_of_isDone isDone]; rfl

/-- A call behind which the request is over is the last one, and the tree ends as that call did, or
else at its next step if there is one. -/
theorem run_of_interrupted {before after : List (LeafCall σ)} {call : LeafCall σ}
    (calls : (chain logger steps).calls context review object state = before ++ call :: after)
    (isDone : context.isDone (call.made context review).world = true) :
    after = [] ∧ ∃ followed,
      ((chain logger steps).nest.seats false)[before.length]? = some ⟨call.leaf, followed⟩ ∧
      Tells context review [] (before ++ [call]) (call.made context review).product
        ((chain logger steps).run context review object state).outcome
        ((chain logger steps).run context review object state).object
        (.interrupted (call.made context review).ends followed) := by
  obtain ⟨visited, tells⟩ := calls_tour logger steps context review object state
  rw [calls] at visited tells
  obtain ⟨visits, visits', tour_eq, rfl, rest_eq⟩ := List.append_eq_map_iff.1 visited
  obtain ⟨visit, later, rfl, rfl, rfl⟩ := List.map_eq_cons_iff.1 rest_eq
  obtain ⟨rfl, final, followed, seat, finish⟩ :=
    (line context review).interrupted tour_eq isDone
  rw [tourOf, final, finish] at tells
  refine ⟨rfl, followed, ?_, tells⟩
  rw [nest, Nest.seats, ← Nest.seatsIn_slotsOf, List.length_map]
  exact seat

end

end Mutator

end Admission
