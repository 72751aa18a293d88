import Admission.Json.Basic

/-! What travels with a request: when it is over, what its log lines carry, and the spans it
belongs to. -/

set_option autoImplicit false

namespace Admission

/-- Milliseconds on the clock. -/
abbrev Instant := Nat

/-- Cancelled once for all who hold it. -/
abbrev Token := Nat

abbrev SpanId := Nat

/-- What all who work on a request share. The state `own` is that of the business logic alone. -/
structure World (σ : Type) where
  now : Instant
  tokens : Token
  cancelled : List Token
  own : σ

namespace World

variable {σ : Type}

def freshToken (world : World σ) : Token × World σ :=
  (world.tokens, { world with tokens := world.tokens + 1 })

def cancel (world : World σ) (token : Token) : World σ :=
  { world with cancelled := token :: world.cancelled }

end World

structure Signal where
  token : Token
  deadline : Option Instant := none

def Signal.isDone {σ : Type} (signal : Signal) (world : World σ) : Bool :=
  world.cancelled.contains signal.token
    || (match signal.deadline with
      | some deadline => deadline ≤ world.now
      | none => false)

/-- The clock counts its seconds in 63 bits. -/
def Instant.after? (now : Instant) (seconds : Nat) : Option Instant :=
  let instant := now + 1000 * seconds
  if instant / 1000 < 1 <<< 63 then some instant else none

def Instant.overflow : String :=
  "overflow when adding duration to instant"

structure Context where
  signal : Signal
  values : SortedMap Json := ∅
  /-- The span in which log lines are written. -/
  scope : Option SpanId := none
  trace : Option SpanId := none

namespace Context

/-- The values override those that are there. -/
def withValues (context : Context) (values : SortedMap Json) : Context :=
  { context with values := context.values.overlay values }

def withTrace (context : Context) (span : SpanId) : Context :=
  { context with trace := some span }

def withToken (context : Context) (token : Token) : Context :=
  { context with signal := { context.signal with token } }

def withDeadline (context : Context) (deadline : Instant) : Context :=
  { context with signal := { context.signal with deadline := some deadline } }

def withTimeout? (context : Context) (now : Instant) (seconds : Nat) : Option Context :=
  (now.after? seconds).map context.withDeadline

def isDone {σ : Type} (context : Context) (world : World σ) : Bool :=
  context.signal.isDone world

end Context

end Admission
