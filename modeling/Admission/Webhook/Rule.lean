import Admission.Object.Edit
import Admission.Webhook.Validator

/-! Rules: business logic given as data. Each call of a rule is kept, as it found things. -/

set_option autoImplicit false

namespace Admission

structure RuleCall where
  rule : Option String
  done : Bool
  operation : Operation
  object : Object

structure Rule where
  name : Option String := none
  /-- Break off at once, with this message. -/
  panic : Option String := none
  /-- Cancel the request, or what this token belongs to. -/
  cancel : Option (Option Token) := none
  error : Option String := none
  warnings : List String := []
  stop : Bool := false

namespace Rule

/-- The calls of rules, the last one first. -/
abbrev Calls := List RuleCall

def called (rule : Rule) (context : Context) (review : Review) (object : Object)
    (world : World Calls) : World Calls :=
  { world with
    own := ⟨rule.name, context.isDone world, review.operation, object⟩ :: world.own }

def cancelled (rule : Rule) (context : Context) (world : World Calls) : World Calls :=
  match rule.cancel with
  | some token => world.cancel (token.getD context.signal.token)
  | none => world

end Rule

/-- A replacement of an object: a new one from a raw text, or from the text of the object that is
replaced, and edits of it. -/
structure Replacement where
  creator : Creator
  raw : Option Bytes := none
  edits : List Edit := []

def Replacement.make (replacement : Replacement) (object : Object) :
    Outcome Failure Object × Option Remark :=
  let raw := replacement.raw.getD (Text.utf8Bytes object.toJson.render)
  let creation := replacement.creator.newObject raw
  let outcome : Outcome Failure Object := match creation.result with
    | .error error => .failed (.other error.message)
    | .ok object =>
      match object.editAll replacement.edits with
      | (_, some error) => .failed (.other error.message)
      | (object, none) => .done object
  (outcome, creation.remark)

structure MutatorRule extends Rule where
  edits : List Edit := []
  replacement : Option Replacement := none

def MutatorRule.mutator (rule : MutatorRule) : Mutator Rule.Calls :=
  .leaf fun context review object world =>
    let world := rule.called context review object world
    match rule.panic with
    | some message => { outcome := .panicked message, object, world }
    | none =>
      match object.editAll rule.edits with
      | (object, some error) => { outcome := .failed (.other error.message), object, world }
      | (object, none) =>
        let world := rule.cancelled context world
        let mutation : Mutation := { warnings := rule.warnings, stop := rule.stop }
        match rule.error, rule.replacement with
        | some message, _ => { outcome := .failed (.other message), object, world }
        | none, none => { outcome := .done mutation, object, world }
        | none, some replacement =>
          let (outcome, remark) := replacement.make object
          { outcome := outcome.map fun new => { mutation with replacement := some new }
            object, world
            remarks := remark.toList }

/-- A rule with a fixed verdict. A deployment of more replicas than allowed is rejected. -/
structure ValidatorRule extends Rule where
  maxReplicas : Option Int := none
  invalid : Option String := none

def ValidatorRule.validator (rule : ValidatorRule) : Validator Rule.Calls :=
  .leaf fun context review object world =>
    let world := rule.called context review object world
    match rule.panic with
    | some message => { outcome := .panicked message, world }
    | none =>
      let world := rule.cancelled context world
      let verdict : Outcome Failure Validation :=
        .done {
          valid := rule.invalid.isNone
          message := rule.invalid.getD ""
          warnings := rule.warnings
          stop := rule.stop }
      match rule.error, rule.maxReplicas with
      | some message, _ => { outcome := .failed (.other message), world }
      | none, none => { outcome := verdict, world }
      | none, some most =>
        match object.replicas? with
        | none => { outcome := .failed (.other "not a deployment"), world }
        | some replicas =>
          if most < replicas then
            { outcome := .done
                { valid := false, message := toString replicas ++ " > " ++ toString most }
              world }
          else { outcome := verdict, world }

end Admission
