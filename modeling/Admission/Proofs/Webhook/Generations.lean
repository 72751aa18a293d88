import Admission.Proofs.Review.Generations
import Admission.Proofs.Webhook.Transparency

/-! Webhooks that do not read in which generation a review came, neither of the review itself nor of
the values of its context. All that they decide is the same in either. -/

set_option autoImplicit false

namespace Admission

variable {σ : Type}

namespace Context

def inGeneration (context : Context) (generation : Generation) : Context :=
  context.withValues (.ofList [("wh-version", .string generation.text)])

/-- Of the values of a request one is the generation. -/
theorem withValues_inGeneration (context : Context) (path traceId : String) (review : Review)
    (generation : Generation) :
    context.withValues (Handler.values path traceId (review.inGeneration generation)) =
      (context.withValues (Handler.values path traceId review)).inGeneration generation := by
  have values : context.values.overlay
        (Handler.values path traceId (review.inGeneration generation)) =
      (context.values.overlay (Handler.values path traceId review)).overlay
        (.ofList [("wh-version", .string generation.text)]) := by
    refine SortedMap.ext_find? fun key => ?_
    by_cases version : key = "wh-version"
    · simp [version, SortedMap.find?_overlay, Handler.values, SortedMap.find?_ofList, Entries.keys,
        Entries.find?, Review.inGeneration]
    · simp [SortedMap.find?_overlay, Handler.values, SortedMap.find?_ofList, Entries.keys,
        Entries.find?, Review.inGeneration, Ne.symm version]
  simp only [inGeneration, withValues, values]

end Context

/-- The leaf does not read in which generation a review came. -/
def LeafBlind {α : Type} (leaf : Context → Review → Object → World σ → α) : Prop :=
  ∀ (context : Context) (review : Review) newer older object world,
    leaf (context.inGeneration newer) (review.inGeneration newer) object world =
      leaf (context.inGeneration older) (review.inGeneration older) object world

namespace Webhook

def Blind (webhook : Webhook σ) : Prop :=
  webhook.core.All LeafBlind LeafBlind

section

variable {webhook : Webhook σ}

theorem Blind.decided_eq (blind : webhook.Blind) (context : Context) (review : Review)
    (newer older : Generation) (world : World σ) :
    webhook.decided (context.inGeneration newer) (review.inGeneration newer) world =
      webhook.decided (context.inGeneration older) (review.inGeneration older) world := by
  have agrees : webhook.Agrees (context.inGeneration newer) (context.inGeneration older)
      (review.inGeneration newer) (review.inGeneration older) :=
    Core.All.imp blind (fun _ unread => unread context review newer older)
      fun _ unread => unread context review newer older
  refine decided_congr rfl ?_ ?_ ?_ agrees world <;> rfl

/-- The layers number their spans by those that were opened before, and put nothing into the
values. -/
theorem logicContext_inGeneration (webhook : Webhook σ) (context : Context) (request other : Review)
    (generation : Generation) {telemetry otherTelemetry : Telemetry}
    (spans : telemetry.spans = otherTelemetry.spans) :
    webhook.logicContext (context.inGeneration generation) request telemetry =
      (webhook.logicContext context other otherTelemetry).inGeneration generation := by
  induction webhook generalizing context telemetry otherTelemetry with
  | mutating reviewer => rfl
  | validating reviewer => rfl
  | measured recorder webhook ih => exact ih context spans
  | traced tracer webhook ih =>
    cases tracer with
    | silent => exact ih context spans
    | recording values => exact ih context spans
    | spans values =>
      show webhook.logicContext ((context.inGeneration generation).withTrace telemetry.spans) _ _ =
        (webhook.logicContext (context.withTrace otherTelemetry.spans) other _).inGeneration generation
      rw [spans]
      refine ih (context.withTrace otherTelemetry.spans) ?_
      rfl

theorem Blind.result_eq (blind : webhook.Blind) (context : Context) (review : Review)
    (newer older : Generation) {one two : State σ} (world : one.world = two.world)
    (spans : one.telemetry.spans = two.telemetry.spans) :
    (webhook.review (context.inGeneration newer) (review.inGeneration newer) one).result =
      (webhook.review (context.inGeneration older) (review.inGeneration older) two).result := by
  rw [result_review, result_review,
    webhook.logicContext_inGeneration context _ (review.inGeneration older) newer spans,
    webhook.logicContext_inGeneration context _ (review.inGeneration older) older rfl, world]
  exact blind.decided_eq _ review newer older two.world

/-- In either generation the same comes of a review, if the contexts are the same as far as they are
read. -/
theorem Blind.result_of_reads (blind : webhook.Blind) {view : Context → Context}
    (reads : webhook.Reads view)
    (keeps : ∀ context request telemetry,
      view (webhook.logicContext context request telemetry) = view context)
    {context other : Context} (signal : context.signal = other.signal)
    (views : ∀ generation,
      view (context.inGeneration generation) = view (other.inGeneration generation))
    (review : Review) (newer older : Generation) {one two : State σ} (world : one.world = two.world) :
    (webhook.review (context.inGeneration newer) (review.inGeneration newer) one).result =
      (webhook.review (other.inGeneration older) (review.inGeneration older) two).result := by
  have seen (context other : Context) (signal : context.signal = other.signal)
      (same : view context = view other) (review : Review) (world : World σ) :
      webhook.decided context review world = webhook.decided other review world :=
    decided_congr rfl signal rfl rfl (reads.agrees same review) world
  rw [result_review, result_review, world]
  calc webhook.decided (webhook.logicContext (context.inGeneration newer) _ _)
        (review.inGeneration newer) two.world
    _ = webhook.decided (context.inGeneration newer) (review.inGeneration newer) two.world :=
      seen _ _ (webhook.signal_logicContext ..) (keeps ..) _ _
    _ = webhook.decided (context.inGeneration older) (review.inGeneration older) two.world :=
      blind.decided_eq context review newer older two.world
    _ = webhook.decided (other.inGeneration older) (review.inGeneration older) two.world :=
      seen (context.inGeneration older) (other.inGeneration older) signal (views older) _ _
    _ = webhook.decided (webhook.logicContext (other.inGeneration older) _ _)
        (review.inGeneration older) two.world :=
      (seen _ _ (webhook.signal_logicContext ..) (keeps ..) _ _).symm

end

end Webhook

end Admission
