import Admission.Proofs.Json.Alike

/-! The layout of a text: where in it each node stands. Only faults tell of it, and what is read
without a fault is the same in every layout. -/

set_option autoImplicit false

namespace Admission.Json

def Fault.plain (fault : Fault) : Fault :=
  { fault with offset := 0 }

def Break.plain (fault : Break) : Break :=
  ⟨fault.reading.plain, fault.skipping.plain⟩

def Ending.plain : Ending → Ending
  | .closed _ => .closed 0
  | .broken fault => .broken fault.plain

def Key.plain (key : Key) : Key :=
  ⟨key.text.mapError Fault.plain, 0, 0⟩

def Scalar.plain : Scalar → Scalar
  | .null => .null
  | .bool value => .bool value
  | .number value => .number (value.mapError Fault.plain)
  | .string value => .string (value.mapError Fault.plain)

mutual

/-- The node as it stands in every layout: without offsets. -/
def Node.plain : Node → Node
  | .scalar value _ _ => .scalar value.plain 0 0
  | .array _ _ items ending => .array 0 0 (plainItems items) ending.plain
  | .object _ members ending => .object 0 (plainMembers members) ending.plain
  | .broken _ fault => .broken 0 fault.plain

def plainItems : List Node → List Node
  | [] => []
  | item :: items => item.plain :: plainItems items

def plainMembers : List (Key × Node) → List (Key × Node)
  | [] => []
  | (key, value) :: members => (key.plain, value.plain) :: plainMembers members

end

theorem agree_plain {α : Type} (result : Except Fault α) :
    Agree (result.mapError Fault.plain) result := by
  cases result with
  | ok a => exact .ok a
  | error fault => exact .error _ fault

theorem Scalar.alike_plain (scalar : Scalar) : scalar.plain.Alike scalar := by
  cases scalar with
  | null => exact .null
  | bool value => exact .bool value
  | number value => exact .number (agree_plain value)
  | string value => exact .string (agree_plain value)

theorem Ending.alike_plain (ending : Ending) : ending.plain.Alike ending := by
  cases ending <;> constructor

theorem plainItems_alike {items : List Node} (alike : ∀ item ∈ items, item.plain.Alike item) :
    List.Forall₂ Node.Alike (plainItems items) items := by
  induction items with
  | nil => exact .nil
  | cons item items ih =>
    rw [List.forall_mem_cons] at alike
    exact .cons alike.1 (ih alike.2)

theorem plainMembers_alike {members : List (Key × Node)}
    (alike : ∀ member ∈ members, member.2.plain.Alike member.2) :
    List.Forall₂ MembersAlike (plainMembers members) members := by
  induction members with
  | nil => exact .nil
  | cons member members ih =>
    rw [List.forall_mem_cons] at alike
    exact .cons ⟨agree_plain member.1.text, alike.1⟩ (ih alike.2)

theorem Node.alike_plain (node : Node) : node.plain.Alike node := by
  induction node using Node.induction with
  | scalar value start stop => exact .scalar value.alike_plain ..
  | array start abandoned items ending ih => exact .array (plainItems_alike ih) ending.alike_plain ..
  | object start members ending ih => exact .object (plainMembers_alike ih) ending.alike_plain ..
  | broken start fault => exact .broken ..

theorem read_plain (node : Node) (shape : Shape) (room : Nat) :
    Agree (node.plain.read shape room) (node.read shape room) :=
  node.alike_plain.read shape room

end Admission.Json
