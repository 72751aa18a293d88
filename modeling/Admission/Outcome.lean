/-! How a computation ends. -/

set_option autoImplicit false

namespace Admission

/-- A panic is no answer of the computation: it breaks off and leaves a message. -/
inductive Outcome (ε α : Type) where
  | done (value : α)
  | failed (error : ε)
  | panicked (message : String)

namespace Outcome

variable {ε ζ α β : Type}

def map (f : α → β) : Outcome ε α → Outcome ε β
  | .done value => .done (f value)
  | .failed error => .failed error
  | .panicked message => .panicked message

def mapFailure (f : ε → ζ) : Outcome ε α → Outcome ζ α
  | .done value => .done value
  | .failed error => .failed (f error)
  | .panicked message => .panicked message

def ofExcept : Except ε α → Outcome ε α
  | .ok value => .done value
  | .error error => .failed error

end Outcome

end Admission
