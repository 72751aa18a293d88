import Admission.Gateway.Server
import Admission.Proofs.Config
import Admission.Proofs.Gateway.Agreement

/-! The time that a review may take. A configuration takes any number of seconds of 64 bits, but the
clock counts in 63: a deadline that lies beyond it breaks off the request, before the review is handed
to a webhook. All other requests with a review are answered, be it that the review failed. -/

set_option autoImplicit false

namespace Admission

def Instant.Overflows (now : Instant) (seconds : Nat) : Prop :=
  2 ^ 63 ≤ now / 1000 + seconds

theorem Instant.after?_eq_none_iff {now : Instant} {seconds : Nat} :
    now.after? seconds = none ↔ now.Overflows seconds := by
  have whole (now : Nat) : (now + 1000 * seconds) / 1000 = now / 1000 + seconds := by omega
  have bound : (1 <<< 63 : Nat) = 2 ^ 63 := by decide
  simp only [after?, whole now, bound, Overflows]
  split
  · rename_i within
    exact iff_of_false nofun (Nat.not_le.2 within)
  · rename_i beyond
    exact iff_of_true rfl (Nat.not_lt.1 beyond)

namespace Text

theorem readDigits_lt {digits : List Char} {value natural : Nat} (small : value < 2 ^ 64)
    (read : readDigits digits value = .ok natural) : natural < 2 ^ 64 := by
  induction digits generalizing value with
  | nil =>
    cases read
    exact small
  | cons c digits ih =>
    rw [readDigits] at read
    split at read
    · cases read
    · split at read
      · rename_i fits
        exact ih fits read
      · cases read

theorem readNatural_lt {text : String} {natural : Nat} (read : readNatural text = .ok natural) :
    natural < 2 ^ 64 := by
  rw [readNatural] at read
  split at read
  · cases read
  · cases read
  · exact readDigits_lt (by decide) read
  · exact readDigits_lt (by decide) read

end Text

namespace Config

theorem timeout_lt_of_readTimeout {text : Option String} {timeout : Option Nat}
    (read : readTimeout text = .ok timeout) : ∀ seconds ∈ timeout, seconds < 2 ^ 64 := by
  cases text with
  | none =>
    cases read
    nofun
  | some text =>
    rw [readTimeout] at read
    split at read
    · rename_i natural
      cases read
      rintro seconds ⟨⟩
      exact Text.readNatural_lt natural
    · cases read

theorem timeout_lt {values : CommandLine.Values} {config : Config}
    (accepted : ofValues values = .ok config) : ∀ seconds ∈ config.timeout, seconds < 2 ^ 64 :=
  timeout_lt_of_readTimeout (timeout_of_ofValues accepted)

end Config

namespace Handler

variable {σ : Type} {handler : Handler σ} {occasion : Occasion} {request : Http.Request}
  {state : State σ} {review : Review}

theorem reviewed?_eq_none_iff : handler.reviewed? request review state = none ↔
    ∃ seconds ∈ handler.timeout, state.world.now.Overflows seconds := by
  rw [reviewed?, handover?]
  cases timeout : handler.timeout with
  | none => simp
  | some seconds =>
    simp only [Option.map_eq_none_iff, Context.withTimeout?, Instant.after?_eq_none_iff,
      Option.mem_some_iff, exists_eq_left']
    exact Iff.rfl

theorem status_of_tells {answer : Json} {outcome : Outcome ReviewError Response} {status : Nat}
    (tells : Tells occasion answer outcome status) : status = 200 ∨ status = 500 := by
  cases tells with
  | done => exact .inl rfl
  | failed | panicked => exact .inr rfl

theorem serve_of_review (occasion : Occasion) (posted : request.method = "POST")
    (path : request.path = "/") (fits : request.body.length ≤ maxBodyBytes)
    (decoded : Review.decode request.body = .ok review) :
    ((∃ seconds ∈ handler.timeout, state.world.now.Overflows seconds) →
      (handler.serve occasion request state).answer = .error Instant.overflow) ∧
    ((∀ seconds ∈ handler.timeout, ¬ state.world.now.Overflows seconds) →
      ∃ response, (handler.serve occasion request state).answer = .ok response ∧
        (response.status = 200 ∨ response.status = 500)) := by
  refine ⟨fun overflows => ?_, fun within => ?_⟩
  · exact (serve_of_overflow posted path fits decoded (reviewed?_eq_none_iff.2 overflows)).1
  · obtain ⟨⟨context, begun⟩, reviewed⟩ :
        ∃ handed, handler.reviewed? request review state = some handed := by
      refine Option.ne_none_iff_exists'.1 fun none => ?_
      obtain ⟨seconds, timeout, overflows⟩ := reviewed?_eq_none_iff.1 none
      exact within seconds timeout overflows
    have named (response : Response)
        (done : (handler.webhook.review context review begun).outcome = .done response) :
        response.id = review.id := Webhook.id_of_review done
    obtain ⟨response, answer, answered, -, -, -, tells⟩ :=
      conclude_answer handler occasion context (handler.opened request state).1 named
    refine ⟨response, ?_, status_of_tells tells⟩
    rw [serve_of_reviewed occasion posted path fits decoded reviewed, answer_closed, answered]

end Handler

namespace Server

variable {σ : Type}

/-- A server comes of every configuration, as its webhooks have names and logic. -/
theorem exists_ofConfig (σ : Type) (config : Config) : ∃ server : Server σ, ofConfig config = .ok server ∧
    server.mutate.timeout = config.timeout ∧ server.validate.timeout = config.timeout := by
  have ids (suffix : String) (ne : suffix ≠ "") : config.webhookId ++ suffix ≠ "" := by
    simp [ne]
  rw [ofConfig]
  simp only [Reviewer.ofSettings, if_neg (ids "-mutator" (by decide)),
    if_neg (ids "-validator" (by decide))]
  exact ⟨_, rfl, rfl, rfl⟩

/-- The request that a handler sees, in place of the one to its path. -/
def rooted (request : Http.Request) : Http.Request :=
  { request with target := "/" }

theorem exists_handler (server : Server σ) {request : Http.Request} {timeout : Option Nat}
    (mutate : server.mutate.timeout = timeout) (validate : server.validate.timeout = timeout)
    (path : request.path = "/mutate" ∨ request.path = "/validate") (occasion : Occasion)
    (state : State σ) : ∃ handler : Handler σ, handler.timeout = timeout ∧
      server.serve occasion request state = handler.serve occasion (rooted request) state := by
  rcases path with path | path
  · exact ⟨server.mutate, mutate, by rw [serve, path]; rfl⟩
  · exact ⟨server.validate, validate, by rw [serve, path]; rfl⟩

theorem path_rooted (request : Http.Request) : (rooted request).path = "/" := by
  show String.ofList ("/".toList.takeWhile fun c => c != '?' && c != '#') = "/"
  decide

/-- A configuration is accepted with any timeout of 64 bits, and a server comes of it. What is posted
to one of its webhooks and holds a review is answered with status 200 or 500, unless the body is too
large or the deadline lies beyond the clock. In the last case there is no answer. -/
theorem answers_within_clock {values : CommandLine.Values} {config : Config} (σ : Type)
    (accepted : Config.ofValues values = .ok config) :
    (∀ seconds ∈ config.timeout, seconds < 2 ^ 64) ∧
    ∃ server : Server σ, ofConfig config = .ok server ∧
      ∀ (occasion : Occasion) (request : Http.Request) (state : State σ) (review : Review),
        request.method = "POST" → request.path = "/mutate" ∨ request.path = "/validate" →
        Review.decode request.body = .ok review →
        (maxBodyBytes < request.body.length →
          ∃ response, (server.serve occasion request state).answer = .ok response ∧
            response.status = 413) ∧
        (request.body.length ≤ maxBodyBytes →
          (∃ seconds ∈ config.timeout, state.world.now.Overflows seconds) →
          (server.serve occasion request state).answer = .error Instant.overflow) ∧
        (request.body.length ≤ maxBodyBytes →
          (∀ seconds ∈ config.timeout, ¬ state.world.now.Overflows seconds) →
          ∃ response, (server.serve occasion request state).answer = .ok response ∧
            (response.status = 200 ∨ response.status = 500)) := by
  obtain ⟨server, built, mutate, validate⟩ := exists_ofConfig σ config
  refine ⟨Config.timeout_lt accepted, server, built, ?_⟩
  intro occasion request state review posted path decoded
  obtain ⟨handler, timeout, served⟩ :=
    server.exists_handler mutate validate path occasion state
  have root : (rooted request).path = "/" := path_rooted request
  have posted : (rooted request).method = "POST" := posted
  rw [served, ← timeout]
  refine ⟨fun exceeds => ?_, fun fits => ?_, fun fits => ?_⟩
  · exact (Handler.serve_of_exceeds posted root exceeds).1
  · exact (Handler.serve_of_review occasion posted root fits decoded).1
  · exact (Handler.serve_of_review occasion posted root fits decoded).2

def namelessValidation : Http.Request :=
  { Handler.namelessRequest with target := "/validate" }

set_option maxRecDepth 8000 in
theorem exists_namelessReview : ∃ review, Review.decode namelessValidation.body = .ok review :=
  ⟨_, rfl⟩

/-- Up to a second before the end of the clock there is an answer. -/
theorem answers_within_clock_last : ∃ values config review, ∃ server : Server Unit, ∃ response,
    Config.ofValues values = .ok config ∧ config.timeout = some (2 ^ 63 - 1) ∧
    ofConfig config = .ok server ∧ Review.decode namelessValidation.body = .ok review ∧
    (server.serve ⟨"1", "1ms"⟩ namelessValidation ⟨⟨999, 1, [], ()⟩, {}⟩).answer = .ok response ∧
    (response.status = 200 ∨ response.status = 500) := by
  obtain ⟨review, decoded⟩ := exists_namelessReview
  have accepted : Config.ofValues [("timeout", ["9223372036854775807"])] =
      .ok { Config.labelled ∅ with timeout := some (2 ^ 63 - 1) } := rfl
  obtain ⟨-, server, built, serves⟩ := answers_within_clock Unit accepted
  have fits : namelessValidation.body.length ≤ maxBodyBytes := by decide +kernel
  obtain ⟨response, answered, status⟩ := (serves ⟨"1", "1ms"⟩ namelessValidation
    ⟨⟨999, 1, [], ()⟩, {}⟩ review rfl (.inr rfl) decoded).2.2 fits
      (by rintro seconds ⟨⟩; simp [Instant.Overflows])
  exact ⟨_, _, review, server, response, accepted, rfl, built, decoded, answered, status⟩

/-- The longest timeout that is accepted leads to no answer, whatever the time. -/
theorem longest_timeout_breaks_off : ∃ values config, ∃ server : Server Unit, ∃ review,
    CommandLine.read Config.parameters (fun _ => none) ["--timeout", "18446744073709551615"] =
      .ok values ∧
    Config.ofValues values = .ok config ∧ ofConfig config = .ok server ∧
    namelessValidation.method = "POST" ∧ namelessValidation.path = "/validate" ∧
    Review.decode namelessValidation.body = .ok review ∧
    ∀ now, (server.serve ⟨"1", "1ms"⟩ namelessValidation ⟨⟨now, 1, [], ()⟩, {}⟩).answer =
      .error Instant.overflow := by
  obtain ⟨review, decoded⟩ := exists_namelessReview
  let config : Config := { Config.labelled ∅ with timeout := some (2 ^ 64 - 1) }
  obtain ⟨server, built, mutate, validate⟩ := exists_ofConfig Unit config
  have fits : namelessValidation.body.length ≤ maxBodyBytes := by decide +kernel
  refine ⟨_, config, server, review, rfl, rfl, built, rfl, rfl, decoded, fun now => ?_⟩
  have path : namelessValidation.path = "/mutate" ∨ namelessValidation.path = "/validate" :=
    .inr rfl
  have posted : (rooted namelessValidation).method = "POST" := rfl
  obtain ⟨handler, timeout, served⟩ :=
    server.exists_handler mutate validate path ⟨"1", "1ms"⟩ ⟨⟨now, 1, [], ()⟩, {}⟩
  have overflows : Instant.Overflows now (2 ^ 64 - 1) :=
    Nat.le_trans (by decide) (Nat.le_add_left (2 ^ 64 - 1) _)
  rw [served]
  refine (Handler.serve_of_review _ posted (path_rooted _) fits decoded).1
    ⟨2 ^ 64 - 1, ?_, overflows⟩
  rw [timeout]
  rfl

end Server

end Admission
