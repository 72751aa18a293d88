import Admission.Config
import Admission.Gateway.Handler
import Admission.Labels

/-! The server of the labels webhooks: one that sets labels and one that requires them. -/

set_option autoImplicit false

namespace Admission

structure Server (σ : Type) where
  mutate : Handler σ
  validate : Handler σ

namespace Server

variable {σ : Type}

def instrument (metrics : Bool) (webhook : Webhook σ) : Webhook σ :=
  .traced (.spans ∅) (if metrics then .measured .instruments webhook else webhook)

def handler (config : Config) (webhook : Webhook σ) : Except SetupError (Handler σ) :=
  (Handler.build (some (instrument config.metrics webhook)) (some (.events ∅)) (some (.spans ∅))
    config.timeout {}).map Prod.fst

def ofConfig (config : Config) : Except SetupError (Server σ) := do
  let logger : Logger := .events ∅
  let mutating ← Reviewer.ofSettings "mutator"
    { id := config.webhookId ++ "-mutator"
      logic := some (Mutator.chain logger [Labels.mutator config.labels])
      logger := some logger }
  let validating ← Reviewer.ofSettings "validator"
    { id := config.webhookId ++ "-validator"
      logic := some (Validator.chain logger [Labels.validator config.requiredLabels])
      logger := some logger }
  return {
    mutate := ← handler config (.mutating mutating)
    validate := ← handler config (.validating validating) }

def readiness (method : String) : Http.Response :=
  if method = "GET" ∨ method = "HEAD" then { status := 200 } else .notAllowed "GET,HEAD"

/-- Answer a request. Each webhook has a path, beneath which its handler sees the root. -/
def serve (server : Server σ) (occasion : Occasion) (request : Http.Request) (state : State σ) :
    Served σ :=
  match request.path with
  | "/mutate" => server.mutate.serve occasion { request with target := "/" } state
  | "/validate" => server.validate.serve occasion { request with target := "/" } state
  | "/readiness" => ⟨.ok (readiness request.method), state⟩
  | _ => ⟨.ok .notFound, state⟩

end Server

end Admission
