import Admission.Proofs.Json.Rendering

/-! Values of a shape. A value whose records are written in the order of the shape is read back from
its text as it is. -/

set_option autoImplicit false

namespace Admission.Json

/-- A value is read against the shape as it is. -/
def Shape.Takes (shape : Shape) (room : Nat) (json : Json) : Prop :=
  (Node.ofJson json).read shape room = .ok json

/-- A text is read as the value that is written in it, if that is of the shape and its numbers read
back. -/
theorem parseAs_render {shape : Shape} {json : Json} (takes : shape.Takes nestingLimit json)
    (reads : json.ReadsBack) : parseAs shape (Text.utf8Bytes json.render) = .ok json := by
  obtain ⟨node, alike, document_eq⟩ := document_render json
  rw [reads] at alike
  have read := (alike.symm.read shape nestingLimit).eq_ok takes
  rw [parseAs, document_eq, Document.readWith, read]
  rfl

theorem takes_string (text : String) (room : Nat) : Shape.string.Takes room (.string text) :=
  rfl

theorem takes_boolean (value : Bool) (room : Nat) : Shape.boolean.Takes room (.bool value) :=
  rfl

theorem takes_uint16 {value : Int} {range : IsInteger value} (fits : 0 ≤ value ∧ value < 65536)
    (room : Nat) : Shape.uint16.Takes room (.number (.integer value range)) :=
  if_pos fits

theorem takes_choice {names : List String} {name : String} (listed : name ∈ names) (room : Nat) :
    (Shape.choice names).Takes room (.string name) :=
  if_pos (List.contains_iff_mem.2 listed)

theorem readItems_ofItems {shape : Shape} {room : Nat} {items : List Json}
    (takes : ∀ item ∈ items, shape.Takes room item) (read : List Json) :
    readItems (Node.ofItems items) shape room (.closed 0) read = .ok (read.reverse ++ items) := by
  induction items generalizing read with
  | nil => simp [readItems, Node.ofItems, Ending.check, Except.map]
  | cons item items ih =>
    rw [List.forall_mem_cons] at takes
    have first : (Node.ofJson item).read shape room = .ok item := takes.1
    simp [readItems, Node.ofItems, first, ih takes.2]

theorem takes_list {shape : Shape} {room : Nat} {items : List Json}
    (takes : ∀ item ∈ items, shape.Takes room item) :
    (Shape.list shape).Takes (room + 1) (.array items) :=
  congrArg (Except.map Json.array) (readItems_ofItems takes [])

/-- What is written into a slot: a value of its shape, or nothing where that may be left out. -/
inductive Writes (room : Nat) (slot : Slot) : Option Json → Prop where
  | value {json : Json} (takes : slot.2.2.Takes room json)
    (present : (Node.ofJson json).isNull = false) : Writes room slot (some json)
  | nothing (optional : slot.2.1 = .optional) : Writes room slot none

theorem Writes.map {α : Type} {room : Nat} {slot : Slot} {f : α → Json} {value? : Option α}
    (optional : slot.2.1 = .optional) (takes : ∀ a, slot.2.2.Takes room (f a))
    (present : ∀ a, (Node.ofJson (f a)).isNull = false) : Writes room slot (value?.map f) := by
  cases value? with
  | none => exact .nothing optional
  | some a => exact .value (takes a) (present a)

variable {slots : List Slot} {members : Entries Json} {room : Nat}

theorem readMembers_ofMembers (slots_nodup : (slots.map Prod.fst).Nodup)
    (nodup : (Entries.keys members).Nodup)
    (known : ∀ member ∈ members, ∃ slot ∈ slots, slot.1 = member.1 ∧
      Writes room slot (some member.2))
    {met : List (String × Option Json)} (unmet : ∀ member ∈ members, met.lookup member.1 = none) :
    readMembers (Node.ofMembers members) slots true room met =
      .ok ((Entries.mapValues some members).reverse ++ met) := by
  induction members generalizing met with
  | nil => rfl
  | cons member members ih =>
    obtain ⟨name, json⟩ := member
    rw [Entries.keys_cons, List.nodup_cons] at nodup
    rw [List.forall_mem_cons] at known unmet
    have first : meeting ⟨.ok name, 0, 0⟩ (Node.ofJson json) slots true room
        (fun name => (met.lookup name).isSome) = .ok [(name, some json)] := by
      have new : met.lookup name = none := unmet.1
      obtain ⟨slot, listed, rfl, writes⟩ := known.1
      cases writes with
      | value takes present =>
        have value : (Node.ofJson json).read slot.2.2 room = .ok json := takes
        simp [meeting, Except.bind, lookup_of_mem slots_nodup listed, new, present, value,
          Except.map]
    -- the members behind have other names, so that they were not met either
    have others : ∀ member ∈ members, ((name, some json) :: met).lookup member.1 = none := by
      intro member mem
      have ne : name ≠ member.1 := fun eq => nodup.1 (eq ▸ Entries.mem_keys_of_mem mem)
      exact (lookup_cons_of_ne ne _ met).trans (unmet.2 member mem)
    rw [Node.ofMembers, readMembers_meeting, first]
    simp [Except.bind, ih nodup.2 known.2 others, Entries.mapValues]

theorem assemble_of_writes (nodup : (slots.map Prod.fst).Nodup)
    (written : Fills (Writes room) slots members) {met : List (String × Option Json)}
    (met_eq : ∀ name, met.lookup name = (Entries.find? members name).map some) (stop : Nat) :
    assemble slots met stop = .ok members := by
  have value_eq (name : String) : (met.lookup name).join = Entries.find? members name := by
    rw [met_eq]
    cases Entries.find? members name <;> rfl
  rw [assemble_eq fun slot mem unmet => ?_]
  · simp only [value_eq, written.filterMap_find? nodup]
  · have writes := written.find? nodup mem
    rw [met_eq, Option.map_eq_none_iff] at unmet
    rw [unmet] at writes
    cases writes with
    | nothing optional => exact optional

theorem takes_record {name : String} {short : Bool} (nodup : (slots.map Prod.fst).Nodup)
    (written : Fills (Writes room) slots members) :
    (Shape.record name (.strict short) slots).Takes (room + 1) (.object members) := by
  have keys_nodup : (Entries.keys members).Nodup := nodup.sublist written.keys_sublist
  have met_eq (name : String) : (Entries.mapValues some members).reverse.lookup name =
      (Entries.find? members name).map some := by
    rw [Entries.lookup_eq_find?, Entries.find?_reverse (by rwa [Entries.keys_mapValues]),
      Entries.find?_mapValues]
  rw [Shape.Takes, Node.ofJson, read_object, RecordForm.unique,
    readMembers_ofMembers nodup keys_nodup written.exists_slot fun _ _ => rfl, List.append_nil]
  simp only [Except.bind, Ending.check, assemble_of_writes nodup written met_eq]
  rfl

end Admission.Json
