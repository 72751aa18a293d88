import Admission.Gateway.Handler
import Admission.Proofs.SortedMap
import Admission.Proofs.Webhook.Mutating
import Admission.Proofs.Webhook.Nesting

/-! Loggers, tracers, recorders and the layers of a webhook decide nothing. They hand business logic
a context with the signal and the values of the review, and only the spans in it are theirs. Logic
that reads no spans makes the same calls and comes to the same answer whatever is told of it, and it
is served the same if it does not read the id of the trace either. Logic that reads them can tell. -/

set_option autoImplicit false

namespace Admission

variable {σ τ : Type}

namespace Context

def plain (context : Context) : Context :=
  { signal := context.signal, values := context.values }

def untraced (context : Context) : Context :=
  { signal := context.signal, values := context.values.erase "trace-id" }

theorem untraced_plain (context : Context) : context.plain.untraced = context.untraced :=
  rfl

/-- Contexts of one request show the same when they are untraced. -/
theorem untraced_withValues {context other : Context} (signal : context.signal = other.signal)
    (same : context.values = other.values) (path first second : String) (review : Review) :
    (context.withValues (Handler.values path first review)).untraced =
      (other.withValues (Handler.values path second review)).untraced := by
  have values : (context.values.overlay (Handler.values path first review)).erase "trace-id" =
      (other.values.overlay (Handler.values path second review)).erase "trace-id" := by
    refine SortedMap.ext_find? fun key => ?_
    by_cases trace : key = "trace-id"
    · simp [trace]
    · have found (traceId : String) : (Handler.values path traceId review).find? key =
          (Handler.values path "" review).find? key := by
        simp [Handler.values, SortedMap.find?_ofList, Entries.keys, Entries.find?, Ne.symm trace]
      simp [trace, SortedMap.find?_overlay, found first, found second, same]
  simp only [untraced, withValues, values, signal]

end Context

/-- A leaf reads no more of its context than a view of it shows. -/
def LeafReads {α : Type} (view : Context → Context)
    (leaf : Context → Review → Object → World σ → α) : Prop :=
  ∀ context review object world,
    leaf context review object world = leaf (view context) review object world

def LeafAgrees {α : Type} (context other : Context) (review request : Review)
    (leaf : Context → Review → Object → World σ → α) : Prop :=
  ∀ object world, leaf context review object world = leaf other request object world

theorem LeafReads.agrees {α : Type} {view : Context → Context}
    {leaf : Context → Review → Object → World σ → α} (reads : LeafReads view leaf)
    {context other : Context} (same : view context = view other) (review : Review) :
    LeafAgrees context other review review leaf := fun object world => by
  rw [reads context, same, ← reads other]

def ReviewRun.result (ran : ReviewRun σ) : Outcome ReviewError Response × World σ :=
  (ran.outcome, ran.state.world)

namespace Reviewer

def mutated (reviewer : Reviewer (Mutator σ)) (context : Context) (review : Review)
    (world : World σ) : Outcome ReviewError Response × World σ :=
  match (reviewer.creator.newObject review.rawObject).result with
  | .error error => (.failed (.object error), world)
  | .ok object =>
    let effect := reviewer.logic.effect context review object world
    match effect.outcome with
    | .failed failure => (.failed (.mutation failure), effect.world)
    | .panicked message => (.panicked message, effect.world)
    | .done mutation =>
      (.done (mutatingResponse review object (mutation.replacement.getD effect.object)
        mutation.warnings), effect.world)

def judged (reviewer : Reviewer (Validator σ)) (context : Context) (review : Review)
    (world : World σ) : Outcome ReviewError Response × World σ :=
  match (reviewer.creator.newObject review.rawObject).result with
  | .error error => (.failed (.object error), world)
  | .ok object =>
    let effect := reviewer.logic.effect context review object world
    match effect.outcome with
    | .failed failure => (.failed (.validation failure), effect.world)
    | .panicked message => (.panicked message, effect.world)
    | .done validation =>
      (.done (.validating review.id validation.valid validation.message validation.warnings),
        effect.world)

theorem result_mutate (reviewer : Reviewer (Mutator σ)) (context : Context) (review : Review)
    (state : State σ) : (reviewer.mutate context review state).result =
      reviewer.mutated context review state.world := by
  let begun := ((reviewer.loggerOf .mutating).report context .debug
    "webhook mutating review request received" state).remarks context
      (reviewer.creator.newObject review.rawObject).remark.toList
  have world : begun.world = state.world := Mutator.world_remarks _ context _
  rw [mutate, mutated]
  cases (reviewer.creator.newObject review.rawObject).result with
  | error error => exact congrArg (Prod.mk _) world
  | ok object =>
    have effect := reviewer.logic.effect_run context review object begun
    rw [world] at effect
    simp only [← effect, Mutator.Run.effect]
    cases (reviewer.logic.run context review object begun).outcome <;> rfl

theorem result_validate (reviewer : Reviewer (Validator σ)) (context : Context) (review : Review)
    (state : State σ) : (reviewer.validate context review state).result =
      reviewer.judged context review state.world := by
  let begun := ((reviewer.loggerOf .validating).report context .debug
    "webhook validating review request received" state).remarks context
      (reviewer.creator.newObject review.rawObject).remark.toList
  have world : begun.world = state.world := Mutator.world_remarks _ context _
  rw [validate, judged]
  cases (reviewer.creator.newObject review.rawObject).result with
  | error error => exact congrArg (Prod.mk _) world
  | ok object =>
    have effect := reviewer.logic.effect_run context review object begun
    rw [world] at effect
    simp only [← effect, Validator.Run.effect]
    cases (reviewer.logic.run context review object begun).outcome <;> rfl

end Reviewer

theorem Tracer.plain_start (tracer : Tracer) (context : Context) (name : String)
    (telemetry : Telemetry) : (tracer.start context name telemetry).1.plain = context.plain := by
  cases tracer <;> rfl

namespace Webhook

/-- What is left of a webhook without its layers and all that logs. -/
structure Core (σ : Type) where
  id : String
  creator : Creator
  logic : Nest (Mutator.Leaf σ) ⊕ Nest (Validator.Leaf σ)

namespace Core

def kind (core : Core σ) : WebhookKind :=
  match core.logic with
  | .inl _ => .mutating
  | .inr _ => .validating

def All (P : Mutator.Leaf σ → Prop) (Q : Validator.Leaf σ → Prop) (core : Core σ) : Prop :=
  match core.logic with
  | .inl nest => nest.All P
  | .inr nest => nest.All Q

theorem All.imp {P P' : Mutator.Leaf σ → Prop} {Q Q' : Validator.Leaf σ → Prop} {core : Core σ}
    (all : core.All P Q) (mutators : ∀ leaf, P leaf → P' leaf)
    (validators : ∀ leaf, Q leaf → Q' leaf) : core.All P' Q' := by
  obtain ⟨id, creator, nest | nest⟩ := core
  · exact Nest.All.imp all mutators
  · exact Nest.All.imp all validators

def mapLeaves (f : Mutator.Leaf σ → Mutator.Leaf τ) (g : Validator.Leaf σ → Validator.Leaf τ)
    (core : Core σ) : Core τ :=
  { core with logic := core.logic.map (Nest.map f) (Nest.map g) }

theorem All.mapLeaves {P : Mutator.Leaf σ → Prop} {Q : Validator.Leaf σ → Prop}
    {P' : Mutator.Leaf τ → Prop} {Q' : Validator.Leaf τ → Prop}
    {f : Mutator.Leaf σ → Mutator.Leaf τ} {g : Validator.Leaf σ → Validator.Leaf τ} {core : Core σ}
    (all : core.All P Q) (mutators : ∀ leaf, P leaf → P' (f leaf))
    (validators : ∀ leaf, Q leaf → Q' (g leaf)) : (core.mapLeaves f g).All P' Q' := by
  obtain ⟨id, creator, nest | nest⟩ := core
  · exact Nest.All.map all mutators
  · exact Nest.All.map all validators

end Core

def core : Webhook σ → Core σ
  | .mutating reviewer => ⟨reviewer.id, reviewer.creator, .inl reviewer.logic.nest⟩
  | .validating reviewer => ⟨reviewer.id, reviewer.creator, .inr reviewer.logic.nest⟩
  | .measured _ webhook | .traced _ webhook => webhook.core

theorem id_core (webhook : Webhook σ) : webhook.core.id = webhook.id := by
  induction webhook with
  | mutating reviewer => rfl
  | validating reviewer => rfl
  | measured recorder webhook ih => exact ih
  | traced tracer webhook ih => exact ih

theorem kind_core (webhook : Webhook σ) : webhook.core.kind = webhook.kind := by
  induction webhook with
  | mutating reviewer => rfl
  | validating reviewer => rfl
  | measured recorder webhook ih => exact ih
  | traced tracer webhook ih => exact ih

/-- No leaf of the webhook reads more of its context than a view of it shows. -/
def Reads (view : Context → Context) (webhook : Webhook σ) : Prop :=
  webhook.core.All (LeafReads view) (LeafReads view)

def Agrees (context other : Context) (review request : Review) (webhook : Webhook σ) : Prop :=
  webhook.core.All (LeafAgrees context other review request)
    (LeafAgrees context other review request)

theorem Reads.agrees {view : Context → Context} {webhook : Webhook σ} (reads : webhook.Reads view)
    {context other : Context} (same : view context = view other) (review : Review) :
    webhook.Agrees context other review review :=
  Core.All.imp reads (fun _ reads => reads.agrees same review)
    fun _ reads => reads.agrees same review

/-- The context that business logic is handed, with the span of the innermost trace around it. -/
def logicContext (webhook : Webhook σ) (context : Context) (request : Review)
    (telemetry : Telemetry) : Context :=
  match webhook with
  | .mutating _ | .validating _ => context
  | .measured _ webhook => webhook.logicContext context request telemetry
  | .traced tracer webhook =>
    let (context, telemetry) := tracer.start context ("webhook.Review/" ++ webhook.id) telemetry
    let telemetry := tracer.addValues context (reviewValues webhook.id request) telemetry
    webhook.logicContext context request
      (tracer.addEvent context "webhook review started" ∅ telemetry)

/-- The layers keep the signal and the values. -/
theorem plain_logicContext (webhook : Webhook σ) (context : Context) (request : Review)
    (telemetry : Telemetry) :
    (webhook.logicContext context request telemetry).plain = context.plain := by
  induction webhook generalizing context telemetry with
  | mutating reviewer => rfl
  | validating reviewer => rfl
  | measured recorder webhook ih => exact ih context telemetry
  | traced tracer webhook ih =>
    exact (ih _ _).trans (tracer.plain_start context _ telemetry)

theorem signal_logicContext (webhook : Webhook σ) (context : Context) (request : Review)
    (telemetry : Telemetry) :
    (webhook.logicContext context request telemetry).signal = context.signal := by
  have plain := webhook.plain_logicContext context request telemetry
  simp only [Context.plain, Context.mk.injEq] at plain
  exact plain.1

theorem untraced_logicContext (webhook : Webhook σ) (context : Context) (request : Review)
    (telemetry : Telemetry) :
    (webhook.logicContext context request telemetry).untraced = context.untraced := by
  rw [← Context.untraced_plain, webhook.plain_logicContext, Context.untraced_plain]

/-- What comes of a review whose logic is handed the context. -/
def decided (webhook : Webhook σ) (context : Context) (review : Review) (world : World σ) :
    Outcome ReviewError Response × World σ :=
  match webhook with
  | .mutating reviewer => reviewer.mutated context review world
  | .validating reviewer => reviewer.judged context review world
  | .measured _ webhook | .traced _ webhook => webhook.decided context review world

theorem result_review (webhook : Webhook σ) (context : Context) (request : Review)
    (state : State σ) : (webhook.review context request state).result =
      webhook.decided (webhook.logicContext context request state.telemetry) request
        state.world := by
  induction webhook generalizing context state with
  | mutating reviewer => exact reviewer.result_mutate context request state
  | validating reviewer => exact reviewer.result_validate context request state
  | measured recorder webhook ih => exact ih context state
  | traced tracer webhook ih => exact ih _ ⟨state.world, _⟩

theorem decided_congr {first second : Webhook σ} (same : first.core = second.core)
    {context other : Context} {review request : Review} (signal : context.signal = other.signal)
    (id : review.id = request.id) (raw : review.rawObject = request.rawObject)
    (agrees : first.Agrees context other review request) (world : World σ) :
    first.decided context review world = second.decided other request world := by
  -- layers are peeled off on either side, down to two webhooks of one family with one nest of leaves
  induction first with
  | measured recorder first ih => exact ih same agrees
  | traced tracer first ih => exact ih same agrees
  | mutating reviewer =>
    induction second with
    | measured recorder second ih => exact ih same
    | traced tracer second ih => exact ih same
    | validating twin => cases congrArg Core.logic same
    | mutating twin =>
      have nest := Sum.inl.inj (congrArg Core.logic same)
      have creator : reviewer.creator = twin.creator := congrArg Core.creator same
      simp only [decided, Reviewer.mutated, Reviewer.mutatingResponse, creator, raw, id,
        Mutator.effect_congr nest signal agrees]
  | validating reviewer =>
    induction second with
    | measured recorder second ih => exact ih same
    | traced tracer second ih => exact ih same
    | mutating twin => cases congrArg Core.logic same
    | validating twin =>
      have nest := Sum.inr.inj (congrArg Core.logic same)
      have creator : reviewer.creator = twin.creator := congrArg Core.creator same
      simp only [decided, Reviewer.judged, creator, raw, id,
        Validator.effect_congr nest signal agrees]

/-- Of the context only what the leaves read and the signal decide anything, and of the state only
the world. -/
theorem result_congr {first second : Webhook σ} (same : first.core = second.core)
    {view : Context → Context} (reads : first.Reads view) {context other : Context}
    {review : Review} {one two : State σ} (signal : context.signal = other.signal)
    (views : view (first.logicContext context review one.telemetry) =
      view (second.logicContext other review two.telemetry)) (world : one.world = two.world) :
    (first.review context review one).result = (second.review other review two).result := by
  rw [result_review, result_review, world]
  refine decided_congr same ?_ rfl rfl (reads.agrees views review) two.world
  rw [signal_logicContext, signal_logicContext, signal]

/-- A call that was made of a leaf, with all that it was told but for the spans. -/
structure LeafCall (σ : Type) where
  leaf : Mutator.Leaf σ ⊕ Validator.Leaf σ
  context : Context
  review : Review
  object : Object
  world : World σ

def LeafCall.isDone (call : LeafCall σ) : Bool :=
  call.context.isDone call.world

def LeafCall.made (leaf : Mutator.Leaf σ ⊕ Validator.Leaf σ) (context : Context) (review : Review)
    (object : Object) (world : World σ) : LeafCall σ :=
  ⟨leaf, context.plain, review, object, world⟩

def watchedMutator (leaf : Mutator.Leaf σ) : Mutator.Leaf (σ × List (LeafCall σ)) :=
  Mutator.noting (.made (.inl leaf)) leaf

def watchedValidator (leaf : Validator.Leaf σ) : Validator.Leaf (σ × List (LeafCall σ)) :=
  Validator.noting (.made (.inr leaf)) leaf

/-- The webhook with leaves that also write down how they are called. -/
def watched : Webhook σ → Webhook (σ × List (LeafCall σ))
  | .mutating reviewer =>
    .mutating { reviewer with logic := reviewer.logic.mapLeaves watchedMutator }
  | .validating reviewer =>
    .validating { reviewer with logic := reviewer.logic.mapLeaves watchedValidator }
  | .measured recorder webhook => .measured recorder webhook.watched
  | .traced tracer webhook => .traced tracer webhook.watched

def unwatched (state : State σ) : State (σ × List (LeafCall σ)) :=
  ⟨state.world.withOwn (state.world.own, []), state.telemetry⟩

def calls (webhook : Webhook σ) (context : Context) (review : Review) (state : State σ) :
    List (LeafCall σ) :=
  (webhook.watched.review context review (unwatched state)).state.world.own.2

theorem core_watched (webhook : Webhook σ) :
    webhook.watched.core = webhook.core.mapLeaves watchedMutator watchedValidator := by
  induction webhook with
  | mutating reviewer =>
    rw [watched, core, core, Mutator.nest_mapLeaves]
    rfl
  | validating reviewer =>
    rw [watched, core, core, Validator.nest_mapLeaves]
    rfl
  | measured recorder webhook ih => exact ih
  | traced tracer webhook ih => exact ih

theorem Reads.watched {webhook : Webhook σ} (reads : webhook.Reads .plain) :
    webhook.watched.Reads .plain := by
  rw [Reads, core_watched]
  refine Core.All.mapLeaves reads (fun leaf reads context review object world => ?_)
    fun leaf reads context review object world => ?_
  · rw [watchedMutator, Mutator.noting, Mutator.noting, reads context]
    rfl
  · rw [watchedValidator, Validator.noting, Validator.noting, reads context]
    rfl

theorem calls_congr {first second : Webhook σ} (same : first.core = second.core)
    (reads : first.Reads .plain) (context : Context) (review : Review) {one two : State σ}
    (world : one.world = two.world) :
    first.calls context review one = second.calls context review two := by
  have cores : first.watched.core = second.watched.core := by
    rw [core_watched, core_watched, same]
  have begun : (unwatched one).world = (unwatched two).world := by
    rw [unwatched, unwatched, world]
  have views := (first.watched.plain_logicContext context review one.telemetry).trans
    (second.watched.plain_logicContext context review two.telemetry).symm
  have result := result_congr cores reads.watched rfl views begun
  exact congrArg (fun result => result.2.own.2) result

theorem context_of_mem_decided (webhook : Webhook σ) (context : Context) (review : Review)
    {world : World (σ × List (LeafCall σ))}
    (before : ∀ call ∈ world.own.2, call.context = context.plain) :
    ∀ call ∈ (webhook.watched.decided context review world).2.own.2,
      call.context = context.plain := by
  -- the world notes every call of a leaf, and each is noted with the context that the logic is handed
  induction webhook with
  | measured recorder webhook ih => exact ih
  | traced tracer webhook ih => exact ih
  | mutating reviewer =>
    rw [watched, decided, Reviewer.mutated]
    split
    · exact before
    · rename_i object made
      have told (leaf : Mutator.Leaf σ) (object : Object) (world : World σ) :
          (LeafCall.made (.inl leaf) context review object world).context = context.plain := rfl
      have noted := Mutator.effect_noting
        (P := fun call : LeafCall σ => call.context = context.plain) told reviewer.logic object before
      dsimp only
      split <;> exact noted
  | validating reviewer =>
    rw [watched, decided, Reviewer.judged]
    split
    · exact before
    · rename_i object made
      have told (leaf : Validator.Leaf σ) (object : Object) (world : World σ) :
          (LeafCall.made (.inr leaf) context review object world).context = context.plain := rfl
      have noted := Validator.effect_noting
        (P := fun call : LeafCall σ => call.context = context.plain) told reviewer.logic object before
      dsimp only
      split <;> exact noted

/-- Every leaf is handed the signal and the values that the review came with. -/
theorem context_of_mem_calls (webhook : Webhook σ) (context : Context) (review : Review)
    (state : State σ) :
    ∀ call ∈ webhook.calls context review state, call.context = context.plain := by
  have result := webhook.watched.result_review context review (unwatched state)
  rw [← webhook.watched.plain_logicContext context review (unwatched state).telemetry]
  rw [calls, show (webhook.watched.review context review (unwatched state)).state.world =
    _ from congrArg Prod.snd result]
  exact webhook.context_of_mem_decided _ review (fun _ mem => nomatch mem)

end Webhook

/-! ## Handlers -/

/-- The id of the trace that a request is in, with spans exported under the id that is given. -/
def Tracer.requestTraceId (tracer : Tracer) (exported : Option String) : String :=
  match tracer with
  | .silent => ""
  | .spans _ => exported.getD ""
  | .recording _ => "recorded-trace"

theorem Tracer.traceId_of_trace (tracer : Tracer) {context : Context}
    (trace : context.trace.isSome = true) (telemetry : Telemetry) :
    tracer.traceId context telemetry = tracer.requestTraceId telemetry.traceId := by
  cases tracer <;> simp [traceId, requestTraceId, trace]

def Served.result (served : Served σ) : Except String Http.Response × World σ :=
  (served.answer, served.state.world)

namespace Handler

section

variable {first second : Handler σ} {occasion other : Occasion} {one two : State σ}

/-- The logic of the handlers reads no spans, and the id of the trace only if it is the same. -/
def ReadsAlike (first second : Handler σ) (exported otherExported : Option String) : Prop :=
  first.webhook.Reads .untraced ∨
    first.webhook.Reads .plain ∧
      first.tracer.requestTraceId exported = second.tracer.requestTraceId otherExported

theorem result_review (webhook : first.webhook.core = second.webhook.core)
    {telemetry otherTelemetry : Telemetry}
    (reads : first.ReadsAlike second telemetry.traceId otherTelemetry.traceId)
    {context otherContext : Context} (signal : context.signal = otherContext.signal)
    (values : context.values = otherContext.values) (trace : context.trace.isSome = true)
    (otherTrace : otherContext.trace.isSome = true) (path : String) (review : Review)
    (world : World σ) :
    (first.webhook.review (context.withValues (Handler.values path
        (first.tracer.traceId context telemetry) review)) review ⟨world, telemetry⟩).result =
      (second.webhook.review (otherContext.withValues (Handler.values path
        (second.tracer.traceId otherContext otherTelemetry) review)) review
        ⟨world, otherTelemetry⟩).result := by
  have signals (traceId otherTraceId : String) :
      (context.withValues (Handler.values path traceId review)).signal =
        (otherContext.withValues (Handler.values path otherTraceId review)).signal := signal
  rw [first.tracer.traceId_of_trace trace, second.tracer.traceId_of_trace otherTrace]
  rcases reads with reads | ⟨reads, traceId⟩
  · refine Webhook.result_congr webhook reads (signals _ _) ?_ rfl
    rw [Webhook.untraced_logicContext, Webhook.untraced_logicContext]
    exact Context.untraced_withValues signal values _ _ _ review
  · refine Webhook.result_congr webhook reads (signals _ _) ?_ rfl
    rw [Webhook.plain_logicContext, Webhook.plain_logicContext, traceId]
    simp only [Context.plain, Context.withValues, signal, values]

theorem result_conclude (task : occasion.task = other.task) (context otherContext : Context)
    (span otherSpan : SpanId) (review : Review) {ran otherRan : ReviewRun σ}
    (same : ran.result = otherRan.result) :
    (first.conclude occasion context span review ran).result =
      (second.conclude other otherContext otherSpan review otherRan).result := by
  obtain ⟨outcome, world⟩ := Prod.mk.inj same
  have failure : failure? occasion ran.outcome = failure? other otherRan.outcome := by
    rw [outcome]
    cases otherRan.outcome with
    | done response => rfl
    | failed error => rfl
    | panicked message => rw [failure?, failure?, task]
  rw [conclude, conclude, failure]
  cases failure? other otherRan.outcome with
  | error message => exact congrArg (Prod.mk _) world
  | ok response =>
    -- the line about warnings that are left out changes the log alone
    refine Prod.ext rfl ?_
    simp only [Served.result, Logger.report, State.note]
    split
    · exact world
    · exact world

theorem result_answerBody (webhook : first.webhook.core = second.webhook.core)
    (reads : first.ReadsAlike second one.telemetry.traceId two.telemetry.traceId)
    (timeout : first.timeout = second.timeout) (task : occasion.task = other.task)
    (world : one.world = two.world) (path : String) (body : Bytes) (span otherSpan : SpanId) :
    (first.answerBody occasion path body span one).result =
      (second.answerBody other path body otherSpan two).result := by
  rw [answerBody, answerBody]
  split
  · exact congrArg (Prod.mk _) world
  · cases Review.decode body with
    | error error => exact congrArg (Prod.mk _) world
    | ok review =>
      simp only [State.note, world, timeout]
      cases second.timeout with
      | none =>
        refine result_conclude task _ _ _ _ review ?_
        refine result_review webhook ?_ ?_ ?_ ?_ ?_ path review _
        exacts [reads, rfl, rfl, rfl, rfl]
      | some seconds =>
        simp only [Context.withTimeout?]
        cases Instant.after? _ seconds with
        | none => rfl
        | some deadline =>
          refine result_conclude task _ _ _ _ review ?_
          refine result_review webhook ?_ ?_ ?_ ?_ ?_ path review _
          exacts [reads, rfl, rfl, rfl, rfl]

theorem result_post (webhook : first.webhook.core = second.webhook.core)
    (reads : first.ReadsAlike second one.telemetry.traceId two.telemetry.traceId)
    (timeout : first.timeout = second.timeout) (task : occasion.task = other.task)
    (world : one.world = two.world) (request : Http.Request)
    (parent otherParent : Option SpanId) :
    (first.post occasion request parent one).result =
      (second.post other request otherParent two).result := by
  rw [post, post]
  split
  · exact congrArg (Prod.mk _) world
  · -- the spans are numbered differently, which no answer tells
    have answered (telemetry otherTelemetry : Telemetry) (span otherSpan : SpanId)
        (traceId : telemetry.traceId = one.telemetry.traceId)
        (otherTraceId : otherTelemetry.traceId = two.telemetry.traceId) :
        (first.answerBody occasion request.path request.body span ⟨one.world, telemetry⟩).result =
          (second.answerBody other request.path request.body otherSpan
            ⟨two.world, otherTelemetry⟩).result := by
      refine result_answerBody webhook ?_ timeout task ?_ request.path request.body _ _
      · rwa [traceId, otherTraceId]
      · exact world
    exact answered _ _ _ _ rfl rfl

theorem exists_routed (handler : Handler σ) (occasion : Occasion) (request : Http.Request)
    (state : State σ) : ∃ (parent : Option SpanId) (begun : State σ), begun.world = state.world ∧
      begun.telemetry.traceId = state.telemetry.traceId ∧
      (handler.serve occasion request state).result =
        (if request.path ≠ "/" then ⟨.ok .notFound, begun⟩
        else if request.method ≠ "POST" then ⟨.ok (.notAllowed "POST"), begun⟩
        else handler.post occasion request parent begun : Served σ).result := by
  rw [serve]
  have kept : (handler.tracer.openRequest (spanName handler.webhook) request.method request.path
      state.telemetry).2.traceId = state.telemetry.traceId := by
    cases handler.tracer <;> rfl
  generalize handler.tracer.openRequest (spanName handler.webhook) request.method request.path
    state.telemetry = opened at kept ⊢
  obtain ⟨span?, telemetry⟩ := opened
  cases span? with
  | none => exact ⟨none, ⟨state.world, telemetry⟩, rfl, kept, rfl⟩
  | some span => exact ⟨some span, ⟨state.world, telemetry⟩, rfl, kept, rfl⟩

/-- Of a handler only its timeout and the core of its webhook decide what is answered, and of the
occasion only the number of the task. -/
theorem result_serve (webhook : first.webhook.core = second.webhook.core)
    (reads : first.ReadsAlike second one.telemetry.traceId two.telemetry.traceId)
    (timeout : first.timeout = second.timeout) (task : occasion.task = other.task)
    (world : one.world = two.world) (request : Http.Request) :
    (first.serve occasion request one).result = (second.serve other request two).result := by
  obtain ⟨parent, begun, begun_world, traceId, served⟩ := first.exists_routed occasion request one
  obtain ⟨otherParent, otherBegun, other_world, otherTraceId, otherServed⟩ :=
    second.exists_routed other request two
  have same : begun.world = otherBegun.world := begun_world.trans (world.trans other_world.symm)
  rw [← traceId, ← otherTraceId] at reads
  rw [served, otherServed]
  split
  · exact congrArg (Prod.mk _) same
  · split
    · exact congrArg (Prod.mk _) same
    · exact result_post webhook reads timeout task same request parent otherParent

end

end Handler

/-- Two webhooks that are one and the same but for what they log, measure and trace have the same id
and kind, and the layers hand every leaf the signal and the values that the review came with. If no
leaf reads the spans, they make the same calls of leaves, each on the same object in the same world
and with the same signal, so that it finds the request over or not in both. They come to the same
answer, failure or panic and leave the same world. Handlers that serve them, whatever these log and
trace, answer every request the same, panics being told with the number of the task, if the leaves do
not read the id of the trace or it is the same. -/
theorem instrumentation_is_transparent {first second : Webhook σ} (same : first.core = second.core)
    (context : Context) (review : Review) {one two : State σ} (world : one.world = two.world) :
    first.id = second.id ∧ first.kind = second.kind ∧
    (∀ call ∈ first.calls context review one, call.context = context.plain) ∧
    (first.Reads .plain →
      first.calls context review one = second.calls context review two ∧
      (first.calls context review one).map Webhook.LeafCall.isDone =
        (second.calls context review two).map Webhook.LeafCall.isDone ∧
      (first.review context review one).outcome = (second.review context review two).outcome ∧
      (first.review context review one).state.world =
        (second.review context review two).state.world) ∧
    ∀ (handler other : Handler σ) (occasion otherOccasion : Occasion) (request : Http.Request),
      handler.webhook = first → other.webhook = second →
      handler.ReadsAlike other one.telemetry.traceId two.telemetry.traceId →
      handler.timeout = other.timeout → occasion.task = otherOccasion.task →
      (handler.serve occasion request one).answer = (other.serve otherOccasion request two).answer ∧
      (handler.serve occasion request one).state.world =
        (other.serve otherOccasion request two).state.world := by
  refine ⟨?_, ?_, first.context_of_mem_calls context review one, fun reads => ?_, ?_⟩
  · rw [← first.id_core, same, second.id_core]
  · rw [← first.kind_core, same, second.kind_core]
  · have calls := Webhook.calls_congr same reads context review world
    have handed : (first.logicContext context review one.telemetry).plain =
        (second.logicContext context review two.telemetry).plain := by
      rw [Webhook.plain_logicContext, Webhook.plain_logicContext]
    have result := Webhook.result_congr same reads rfl handed world
    exact ⟨calls, congrArg _ calls, congrArg Prod.fst result, congrArg Prod.snd result⟩
  · rintro handler other occasion otherOccasion request rfl rfl reads timeout task
    have served := Handler.result_serve same reads timeout task world request
    exact ⟨congrArg Prod.fst served, congrArg Prod.snd served⟩

/-- A webhook that names every object `b`, and all that it does is logged, measured and traced. -/
def Webhook.noisy : Webhook Unit :=
  .traced (.spans ∅) <| .measured .recording <| .traced (.recording ∅) <| .mutating
    { Reviewer.naming with
      logic := .chain (.recording ∅) [Reviewer.naming.logic]
      logger := .events ∅ }

def Webhook.quiet : Webhook Unit :=
  .mutating { Reviewer.naming with logic := .chain .silent [Reviewer.naming.logic] }

theorem noisy_and_quiet_are_alike : Webhook.noisy.core = Webhook.quiet.core ∧
    let context : Context := { signal := ⟨0, none⟩ }
    let state : State Unit := ⟨⟨0, 1, [], ()⟩, {}⟩
    Webhook.noisy.calls context Reviewer.nameless state =
      Webhook.quiet.calls context Reviewer.nameless state ∧
    (Webhook.quiet.calls context Reviewer.nameless state).length = 1 ∧
    (Webhook.noisy.review context Reviewer.nameless state).outcome =
      (Webhook.quiet.review context Reviewer.nameless state).outcome ∧
    ∀ request, (Handler.serve ⟨.noisy, .recording ∅, .spans ∅, some 5⟩ ⟨"1", "1ms"⟩ request
        state).answer =
      (Handler.serve ⟨.quiet, .silent, .silent, some 5⟩ ⟨"1", "2ms"⟩ request state).answer := by
  refine ⟨rfl, ?_⟩
  intro context state
  have same : Webhook.noisy.core = Webhook.quiet.core := rfl
  have world : state.world = state.world := rfl
  -- the one leaf reads nothing of its context
  have reads (view : Context → Context) : Webhook.noisy.Reads view :=
    .chain (List.forall_mem_singleton.2 (.leaf fun _ _ _ _ => rfl))
  obtain ⟨-, -, -, reviewed, served⟩ :=
    instrumentation_is_transparent same context Reviewer.nameless world
  obtain ⟨calls, -, outcome, -⟩ := reviewed (reads .plain)
  refine ⟨calls, rfl, outcome, fun request => ?_⟩
  exact (served ⟨.noisy, .recording ∅, .spans ∅, some 5⟩ ⟨.quiet, .silent, .silent, some 5⟩
    ⟨"1", "1ms"⟩ ⟨"1", "2ms"⟩ request rfl rfl (.inl (reads .untraced)) rfl rfl).1

/-- A validator that warns of the trace that it finds itself in. -/
def Webhook.telling : Webhook Unit :=
  .validating {
    id := "telling"
    logic := .leaf fun context _ _ world =>
      let traceId := (context.values.find? "trace-id").toList.filterMap Json.string?
      ⟨.done { warnings := traceId ++ (context.trace.map toString).toList }, world⟩
    creator := .dynamic ∅
    logger := .silent }

/-- Logic that reads the spans tells whether it is traced, and logic that reads the id of the trace
tells how its handler is. -/
theorem telling_tells_apart :
    let context : Context := { signal := ⟨0, none⟩ }
    let state : State Unit := ⟨⟨0, 1, [], ()⟩, {}⟩
    let request : Http.Request := {
      method := "POST"
      target := "/"
      body := Text.utf8Bytes
        ("\x7b\"kind\":\"AdmissionReview\",\"apiVersion\":\"admission.k8s.io/v1\"," ++
          "\"request\":\x7b\"object\":\x7b\x7d\x7d\x7d") }
    (Webhook.traced (.spans ∅) .telling).core = Webhook.telling.core ∧
    ((Webhook.traced (.spans ∅) .telling).review context Reviewer.nameless state).outcome ≠
      (Webhook.telling.review context Reviewer.nameless state).outcome ∧
    (Handler.serve ⟨.telling, .silent, .recording ∅, none⟩ ⟨"1", "1ms"⟩ request state).answer ≠
      (Handler.serve ⟨.telling, .silent, .silent, none⟩ ⟨"1", "1ms"⟩ request state).answer := by
  intro context state request
  refine ⟨rfl, fun same => ?_, by decide +kernel⟩
  have warnings : [toString 0] = ([] : List String) :=
    (Response.validating.inj (Outcome.done.inj same)).2.2.2
  cases warnings

end Admission
