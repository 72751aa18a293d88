import Admission.Proofs.Json.Records

/-! Nodes that are read alike: every reader makes the same of them, or can make nothing of either.
Faults are not compared, so that neither are the places in a text that they name. -/

set_option autoImplicit false

namespace Admission.Json

/-- Two results are the same, or both are faults. -/
inductive Agree {ε ε' α : Type} : Except ε α → Except ε' α → Prop where
  | ok (a : α) : Agree (.ok a) (.ok a)
  | error (fault : ε) (other : ε') : Agree (.error fault) (.error other)

namespace Agree

variable {ε ε' ε'' α β : Type} {first : Except ε α} {second : Except ε' α} {third : Except ε'' α}

theorem refl (result : Except ε α) : Agree result result := by
  cases result with
  | ok a => exact .ok a
  | error fault => exact .error fault fault

theorem symm (agree : Agree first second) : Agree second first := by
  cases agree with
  | ok a => exact .ok a
  | error fault other => exact .error other fault

theorem trans (agree : Agree first second) (other : Agree second third) : Agree first third := by
  cases agree with
  | ok a =>
    cases other
    exact .ok a
  | error fault =>
    cases other
    exact .error fault _

theorem map (agree : Agree first second) (f : α → β) : Agree (first.map f) (second.map f) := by
  cases agree with
  | ok a => exact .ok (f a)
  | error fault other => exact .error fault other

theorem bind (agree : Agree first second) {f : α → Except ε β} {g : α → Except ε' β}
    (rest : ∀ a, Agree (f a) (g a)) : Agree (first.bind f) (second.bind g) := by
  cases agree with
  | ok a => exact rest a
  | error fault other => exact .error fault other

theorem eq_ok (agree : Agree first second) {a : α} (ok : first = .ok a) : second = .ok a := by
  subst ok
  cases agree
  rfl

end Agree

def readAll {α β : Type} (read : α → Except Fault β) : List α → Except Fault (List β)
  | [] => .ok []
  | part :: parts => (read part).bind fun value => (readAll read parts).map (value :: ·)

theorem readAll_agree {α α' β : Type} {read : α → Except Fault β} {other : α' → Except Fault β}
    {parts : List α} {others : List α'}
    (agree : List.Forall₂ (fun part other' => Agree (read part) (other other')) parts others) :
    Agree (readAll read parts) (readAll other others) := by
  induction agree with
  | nil => exact .ok []
  | cons head _ ih => exact head.bind fun value => ih.map _

def readEntry {α : Type} (read : Node → Except Fault α) (member : Key × Node) :
    Except Fault (String × α) :=
  member.1.text.bind fun name => (read member.2).map (name, ·)

theorem readItems_eq (items : List Node) (shape : Shape) (room : Nat) (ending : Ending)
    (read : List Json) : readItems items shape room ending read =
      (readAll (·.read shape room) items).bind fun values =>
        ending.check.map fun _ => read.reverse ++ values := by
  induction items generalizing read with
  | nil => simp [readItems, readAll, Except.bind]
  | cons item items ih =>
    rw [readItems, readAll]
    cases item.read shape room with
    | error fault => rfl
    | ok value =>
      simp only [ih, Except.bind]
      cases readAll (·.read shape room) items with
      | error fault => rfl
      | ok values => simp [Except.map]

theorem itemValues_eq (items : List Node) (room : Nat) (ending : Ending) (read : List Tree) :
    itemValues items room ending read =
      (readAll (·.value room) items).bind fun values =>
        ending.check.map fun _ => read.reverse ++ values := by
  induction items generalizing read with
  | nil => cases ending <;> simp [itemValues, readAll, Except.bind, Ending.check, Except.map]
  | cons item items ih =>
    rw [itemValues, readAll]
    cases item.value room with
    | error fault => rfl
    | ok value =>
      simp only [ih, Except.bind]
      cases readAll (·.value room) items with
      | error fault => rfl
      | ok values => simp [Except.map]

theorem readEntries_eq (members : List (Key × Node)) (shape : Shape) (room : Nat) (ending : Ending)
    (read : List (String × Json)) : readEntries members shape room ending read =
      (readAll (readEntry (·.read shape room)) members).bind fun entries =>
        ending.check.map fun _ => read.reverse ++ entries := by
  induction members generalizing read with
  | nil => simp [readEntries, readAll, Except.bind]
  | cons member members ih =>
    obtain ⟨key, node⟩ := member
    rw [readEntries, readAll, readEntry]
    cases key.text with
    | error fault => rfl
    | ok name =>
      dsimp only [Except.bind]
      cases node.read shape room with
      | error fault => rfl
      | ok value =>
        simp only [ih, Except.bind, Except.map]
        cases readAll (readEntry (·.read shape room)) members with
        | error fault => rfl
        | ok entries => simp

theorem memberValues_eq (members : List (Key × Node)) (room : Nat) (ending : Ending)
    (read : Entries Tree) : memberValues members room ending read =
      (readAll (readEntry (·.value room)) members).bind fun entries =>
        ending.check.map fun _ => read.reverse ++ entries := by
  induction members generalizing read with
  | nil => cases ending <;> simp [memberValues, readAll, Except.bind, Ending.check, Except.map]
  | cons member members ih =>
    obtain ⟨key, node⟩ := member
    rw [memberValues, readAll, readEntry]
    cases key.text with
    | error fault => rfl
    | ok name =>
      dsimp only [Except.bind]
      cases node.value room with
      | error fault => rfl
      | ok value =>
        simp only [ih, Except.bind, Except.map]
        cases readAll (readEntry (·.value room)) members with
        | error fault => rfl
        | ok entries => simp

inductive Scalar.Alike : Scalar → Scalar → Prop where
  | null : Alike .null .null
  | bool (value : Bool) : Alike (.bool value) (.bool value)
  | number {value other : Except Fault Number} (agree : Agree value other) :
    Alike (.number value) (.number other)
  | string {value other : Except Fault String} (agree : Agree value other) :
    Alike (.string value) (.string other)

inductive Ending.Alike : Ending → Ending → Prop where
  | closed (stop other : Nat) : Alike (.closed stop) (.closed other)
  | broken (fault other : Break) : Alike (.broken fault) (.broken other)

theorem Ending.Alike.check {ending other : Ending} (alike : ending.Alike other) {α : Type} (a : α) :
    Agree (ending.check.map fun _ => a) (other.check.map fun _ => a) := by
  cases alike with
  | closed stop other => exact .ok a
  | broken fault other => exact .error _ _

/-- Two nodes of which a reader of a shape makes the same. -/
structure Node.AlikeAs (shape : Shape) (node other : Node) : Prop where
  null : node.isNull = other.isNull
  skip : Agree node.skip other.skip
  read : ∀ room, Agree (node.read shape room) (other.read shape room)

/-- Two nodes of which every reader makes the same. -/
structure Node.Alike (node other : Node) : Prop where
  value : ∀ room, Agree (node.value room) (other.value room)
  as : ∀ shape, node.AlikeAs shape other

structure MembersAlike (member other : Key × Node) : Prop where
  text : Agree member.1.text other.1.text
  node : member.2.Alike other.2

namespace Node.AlikeAs

variable {shape : Shape} {node other third : Node}

theorem symm (alike : node.AlikeAs shape other) : other.AlikeAs shape node :=
  ⟨alike.null.symm, alike.skip.symm, fun room => (alike.read room).symm⟩

theorem trans (alike : node.AlikeAs shape other) (more : other.AlikeAs shape third) :
    node.AlikeAs shape third :=
  ⟨alike.null.trans more.null, alike.skip.trans more.skip, fun room =>
    (alike.read room).trans (more.read room)⟩

end Node.AlikeAs

namespace Node.Alike

variable {node other third : Node}

theorem refl (node : Node) : node.Alike node :=
  ⟨fun _ => .refl _, fun _ => ⟨rfl, .refl _, fun _ => .refl _⟩⟩

theorem symm (alike : node.Alike other) : other.Alike node :=
  ⟨fun room => (alike.value room).symm, fun shape => (alike.as shape).symm⟩

theorem trans (alike : node.Alike other) (more : other.Alike third) : node.Alike third :=
  ⟨fun room => (alike.value room).trans (more.value room), fun shape =>
    (alike.as shape).trans (more.as shape)⟩

theorem null (alike : node.Alike other) : node.isNull = other.isNull :=
  (alike.as .any).null

theorem skip (alike : node.Alike other) : Agree node.skip other.skip :=
  (alike.as .any).skip

theorem read (alike : node.Alike other) (shape : Shape) (room : Nat) :
    Agree (node.read shape room) (other.read shape room) :=
  (alike.as shape).read room

end Node.Alike

theorem readItems_agree {items others : List Node} {ending other : Ending} {shape : Shape}
    (alike : List.Forall₂ (Node.AlikeAs shape) items others) (ends : ending.Alike other) (room : Nat) :
    Agree (readItems items shape room ending []) (readItems others shape room other []) := by
  rw [readItems_eq, readItems_eq]
  exact (readAll_agree (alike.imp fun _ _ alike => alike.read room)).bind fun _ => ends.check _

theorem itemValues_agree {items others : List Node} {ending other : Ending}
    (alike : List.Forall₂ Node.Alike items others) (ends : ending.Alike other) (room : Nat) :
    Agree (itemValues items room ending []) (itemValues others room other []) := by
  rw [itemValues_eq, itemValues_eq]
  exact (readAll_agree (alike.imp fun _ _ alike => alike.value room)).bind fun _ => ends.check _

theorem assembleShort_agree (slots : List Slot) (short : Bool) (index : Nat) (expected : String)
    (stop other : Nat) : Agree (assembleShort slots short index expected stop)
      (assembleShort slots short index expected other) := by
  induction slots generalizing index with
  | nil => exact .ok _
  | cons slot slots ih =>
    obtain ⟨name, presence, shape⟩ := slot
    cases presence with
    | defaulted value => exact (ih (index + 1)).map _
    | required => exact .error _ _
    | optional =>
      cases short with
      | false => exact .error _ _
      | true => exact ih (index + 1)

/-- Items that are alike in their places: an item behind the last slot is not read at all. -/
inductive PlacesAlike : List Slot → List Node → List Node → Prop where
  | nil (slots : List Slot) : PlacesAlike slots [] []
  | surplus (item other : Node) (items others : List Node) :
    PlacesAlike [] (item :: items) (other :: others)
  | cons {name : String} {presence : Presence} {shape : Shape} {slots : List Slot} {item other : Node}
    {items others : List Node} (alike : item.AlikeAs shape other)
    (rest : PlacesAlike slots items others) :
    PlacesAlike ((name, presence, shape) :: slots) (item :: items) (other :: others)

theorem placesAlike_of_forall₂ {items others : List Node}
    (alike : List.Forall₂ Node.Alike items others) (slots : List Slot) :
    PlacesAlike slots items others := by
  induction alike generalizing slots with
  | nil => exact .nil slots
  | cons head _ ih =>
    cases slots with
    | nil => exact .surplus _ _ _ _
    | cons slot slots => exact .cons (head.as slot.2.2) (ih slots)

theorem readPositions_agree {items others : List Node} {slots : List Slot} {ending other : Ending}
    (alike : PlacesAlike slots items others) (ends : ending.Alike other) (short : Bool) (index : Nat)
    (expected : String) (room : Nat) :
    Agree (readPositions items slots short index expected room ending)
      (readPositions others slots short index expected room other) := by
  induction alike generalizing index with
  | nil slots =>
    cases slots with
    | nil => cases ends <;> constructor
    | cons slot slots =>
      cases ends with
      | closed stop other => exact assembleShort_agree ..
      | broken fault other => exact .error _ _
  | surplus item other items others => exact .error _ _
  | cons alike _ ih =>
    rw [readPositions_cons, readPositions_cons, alike.null]
    split
    · exact ih (index + 1)
    · exact (alike.read room).bind fun value => (ih (index + 1)).map _

theorem readEntry_agree {α : Type} (read : Node → Except Fault α) {member other : Key × Node}
    (text : Agree member.1.text other.1.text) (agree : Agree (read member.2) (read other.2)) :
    Agree (readEntry read member) (readEntry read other) :=
  text.bind fun _ => agree.map _

theorem readEntries_agree {members others : List (Key × Node)} {ending other : Ending}
    (alike : List.Forall₂ MembersAlike members others) (ends : ending.Alike other) (shape : Shape)
    (room : Nat) :
    Agree (readEntries members shape room ending []) (readEntries others shape room other []) := by
  rw [readEntries_eq, readEntries_eq]
  have entries := alike.imp fun _ _ alike =>
    readEntry_agree (·.read shape room) alike.text (alike.node.read shape room)
  exact (readAll_agree entries).bind fun _ => ends.check _

theorem memberValues_agree {members others : List (Key × Node)} {ending other : Ending}
    (alike : List.Forall₂ MembersAlike members others) (ends : ending.Alike other) (room : Nat) :
    Agree (memberValues members room ending []) (memberValues others room other []) := by
  rw [memberValues_eq, memberValues_eq]
  have entries := alike.imp fun _ _ alike =>
    readEntry_agree (·.value room) alike.text (alike.node.value room)
  exact (readAll_agree entries).bind fun _ => ends.check _

structure MeetAlike (slots : List Slot) (member other : Key × Node) : Prop where
  text : Agree member.1.text other.1.text
  skip : Agree member.2.skip other.2.skip
  known : ∀ name slot, member.1.text = .ok name → slots.lookup name = some slot →
    member.2.AlikeAs slot.2 other.2

theorem MembersAlike.meet {member other : Key × Node} (alike : MembersAlike member other)
    (slots : List Slot) : MeetAlike slots member other :=
  ⟨alike.text, alike.node.skip, fun _ slot _ _ => alike.node.as slot.2⟩

theorem meeting_agree {slots : List Slot} {member other : Key × Node}
    (alike : MeetAlike slots member other) (unique : Bool) (room : Nat) (isMet : String → Bool) :
    Agree (meeting member.1 member.2 slots unique room isMet)
      (meeting other.1 other.2 slots unique room isMet) := by
  obtain ⟨text, skip, known⟩ := alike
  rw [meeting, meeting]
  generalize eq : member.1.text = result, other.1.text = result' at text
  cases text with
  | error fault fault' => exact .error _ _
  | ok name =>
    dsimp only [Except.bind]
    cases found : slots.lookup name with
    | none => exact skip.map _
    | some slot =>
      have alike := known name slot eq found
      dsimp only
      rw [alike.null]
      split
      · exact .error _ _
      · split
        · exact .ok _
        · exact (alike.read room).map _

theorem readMembers_agree {slots : List Slot} {members others : List (Key × Node)}
    (alike : List.Forall₂ (MeetAlike slots) members others) (unique : Bool) (room : Nat)
    (met : List (String × Option Json)) :
    Agree (readMembers members slots unique room met) (readMembers others slots unique room met) := by
  induction alike generalizing met with
  | nil => exact .ok met
  | cons head _ ih =>
    rw [readMembers_meeting, readMembers_meeting]
    exact (meeting_agree head unique room _).bind fun new => ih (new ++ met)

/-- Where a record ends matters to what is missing alone. -/
theorem assemble_agree (slots : List Slot) (met : List (String × Option Json)) (stop other : Nat) :
    Agree (assemble slots met stop) (assemble slots met other) := by
  induction slots with
  | nil => exact .ok _
  | cons slot slots ih =>
    obtain ⟨name, presence, shape⟩ := slot
    cases found : met.lookup name with
    | some value? =>
      cases value? with
      | some value => simpa only [assemble, found] using ih.map _
      | none => simpa only [assemble, found] using ih
    | none =>
      cases presence with
      | defaulted value => simpa only [assemble, found] using ih.map _
      | optional => simpa only [assemble, found] using ih
      | required => simpa only [assemble, found] using .error _ _

theorem read_object_agree {name : String} {form : RecordForm} {slots : List Slot}
    {members others : List (Key × Node)} {ending other : Ending}
    (alike : List.Forall₂ (MeetAlike slots) members others) (ends : ending.Alike other)
    (start start' : Nat) (room : Nat) :
    Agree ((Node.object start members ending).read (.record name form slots) room)
      ((Node.object start' others other).read (.record name form slots) room) := by
  cases room with
  | zero => cases form <;> exact .error _ _
  | succ room =>
    rw [read_object, read_object]
    refine (readMembers_agree alike form.unique room []).bind fun met => ?_
    cases ends with
    | closed stop other => exact (assemble_agree slots met stop other).map _
    | broken fault other => exact .error _ _

theorem chosen_agree (names : List String) {text other : Except Fault String}
    (agree : Agree text other) (stop stop' : Nat) :
    Agree (chosen names text stop) (chosen names other stop') := by
  refine agree.bind fun text => ?_
  split
  · exact .ok _
  · exact .error _ _

theorem choice_object_agree {members others : List (Key × Node)} {ending other : Ending}
    (alike : List.Forall₂ MembersAlike members others) (ends : ending.Alike other)
    (start start' : Nat) (names : List String) (room : Nat) :
    Agree ((Node.object start members ending).choice names room)
      ((Node.object start' others other).choice names room) := by
  cases alike with
  | nil => exact .error _ _
  | @cons member member' members others head rest =>
    cases rest with
    | cons => exact .error _ _
    | nil =>
      cases ends with
      | broken => exact .error _ _
      | closed =>
        simp only [Node.choice]
        split
        · exact .error _ _
        · refine (chosen_agree names head.text _ _).bind fun name => ?_
          rw [head.node.null]
          split
          · exact .ok _
          · exact .error _ _

/-! ## Nodes that are alike in their parts -/

theorem value_scalar_agree {scalar other : Scalar} (alike : scalar.Alike other) :
    Agree scalar.value other.value := by
  cases alike with
  | null => exact .ok _
  | bool value => exact .ok _
  | number agree => exact agree.map _
  | string agree => exact agree.map _

theorem text_scalar_agree {scalar other : Scalar} (alike : scalar.Alike other)
    (start stop start' stop' : Nat) :
    Agree (Node.scalar scalar start stop).text (Node.scalar other start' stop').text := by
  cases alike with
  | string agree => exact agree.map _
  | _ => exact .error _ _

theorem boolean_scalar_agree {scalar other : Scalar} (alike : scalar.Alike other)
    (start stop start' stop' : Nat) :
    Agree (Node.scalar scalar start stop).boolean (Node.scalar other start' stop').boolean := by
  cases alike with
  | bool value => exact .ok _
  | _ => exact .error _ _

theorem uint16_scalar_agree {scalar other : Scalar} (alike : scalar.Alike other)
    (start stop start' stop' : Nat) :
    Agree (Node.scalar scalar start stop).uint16 (Node.scalar other start' stop').uint16 := by
  cases alike with
  | number agree =>
    cases agree with
    | error fault other => exact .error _ _
    | ok value =>
      cases value with
      | float value => exact .error _ _
      | integer value range =>
        simp only [Node.uint16]
        split
        · exact .ok _
        · exact .error _ _
  | _ => exact .error _ _

theorem choice_scalar_agree {scalar other : Scalar} (alike : scalar.Alike other)
    (start stop start' stop' : Nat) (names : List String) (room : Nat) :
    Agree ((Node.scalar scalar start stop).choice names room)
      ((Node.scalar other start' stop').choice names room) := by
  cases alike with
  | string agree => exact chosen_agree names agree stop stop'
  | _ => exact .error _ _

namespace Node.Alike

theorem scalar {scalar other : Scalar} (alike : scalar.Alike other) (start stop start' stop' : Nat) :
    (Node.scalar scalar start stop).Alike (.scalar other start' stop') where
  value _ := value_scalar_agree alike
  as shape := {
    null := by cases alike <;> rfl
    skip := .ok ()
    read := fun room => by
      cases shape with
      | any => exact (value_scalar_agree alike).map _
      | string => exact text_scalar_agree alike ..
      | boolean => exact boolean_scalar_agree alike ..
      | uint16 => exact uint16_scalar_agree alike ..
      | choice names => exact choice_scalar_agree alike ..
      | list | map => exact .error _ _
      | record name form slots => cases form <;> exact .error _ _ }

theorem broken (start start' : Nat) (fault other : Break) :
    (Node.broken start fault).Alike (.broken start' other) where
  value _ := .error _ _
  as shape := {
    null := rfl
    skip := .error _ _
    read := fun room => by
      cases shape with
      | record name form slots => cases form <;> exact .error _ _
      | _ => exact .error _ _ }

theorem value_array {items others : List Node} {ending other : Ending}
    (alike : List.Forall₂ Node.Alike items others) (ends : ending.Alike other)
    (start start' abandoned abandoned' room : Nat) :
    Agree ((Node.array start abandoned items ending).value room)
      ((Node.array start' abandoned' others other).value room) := by
  cases room with
  | zero => exact .error _ _
  | succ room => exact (itemValues_agree alike ends room).map _

theorem value_object {members others : List (Key × Node)} {ending other : Ending}
    (alike : List.Forall₂ MembersAlike members others) (ends : ending.Alike other)
    (start start' room : Nat) :
    Agree ((Node.object start members ending).value room)
      ((Node.object start' others other).value room) := by
  cases room with
  | zero => exact .error _ _
  | succ room => exact (memberValues_agree alike ends room).map _

theorem array {items others : List Node} {ending other : Ending}
    (alike : List.Forall₂ Node.Alike items others) (ends : ending.Alike other)
    (start start' abandoned abandoned' : Nat) :
    (Node.array start abandoned items ending).Alike (.array start' abandoned' others other) where
  value room := value_array alike ends ..
  as shape := {
    null := rfl
    skip := by cases ends <;> constructor
    read := fun room => by
      cases shape with
      | any => exact (value_array alike ends ..).map _
      | string | boolean | uint16 | choice | map => exact .error _ _
      | list item =>
        cases room with
        | zero => exact .error _ _
        | succ room =>
          exact (readItems_agree (alike.imp fun _ _ alike => alike.as item) ends room).map _
      | record name form slots =>
        cases form with
        | lenient => cases room <;> exact .error _ _
        | strict short =>
          cases room with
          | zero => exact .error _ _
          | succ room =>
            exact (readPositions_agree (placesAlike_of_forall₂ alike slots) ends ..).map _ }

theorem object {members others : List (Key × Node)} {ending other : Ending}
    (alike : List.Forall₂ MembersAlike members others) (ends : ending.Alike other)
    (start start' : Nat) :
    (Node.object start members ending).Alike (.object start' others other) where
  value room := value_object alike ends ..
  as shape := {
    null := rfl
    skip := by cases ends <;> constructor
    read := fun room => by
      cases shape with
      | any => exact (value_object alike ends ..).map _
      | string | boolean | uint16 | list => exact .error _ _
      | choice names => exact choice_object_agree alike ends ..
      | map value =>
        cases room with
        | zero => exact .error _ _
        | succ room => exact (readEntries_agree alike ends value room).map _
      | record name form slots =>
        exact read_object_agree (alike.imp fun _ _ alike => alike.meet slots) ends .. }

end Node.Alike

end Admission.Json
