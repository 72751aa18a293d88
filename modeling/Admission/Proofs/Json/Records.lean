import Admission.Proofs.Json.Reading

/-! Records that are read from a text. Each slot of a record is filled from the one node that stands
for it, under its name in an object and at its place in a list. -/

set_option autoImplicit false

namespace Admission.Json

def RecordForm.unique : RecordForm → Bool
  | .strict _ => true
  | .lenient => false

theorem read_object (name : String) (form : RecordForm) (slots : List Slot) (start : Nat)
    (members : List (Key × Node)) (ending : Ending) (room : Nat) :
    (Node.object start members ending).read (.record name form slots) (room + 1) =
      (readMembers members slots form.unique room []).bind fun met =>
        ending.check.bind fun stop => (assemble slots met stop).map .object := by
  cases form with
  | strict short =>
    rw [Node.read, RecordForm.unique]
    cases readMembers members slots true room [] <;> rfl
  | lenient =>
    rw [Node.read, RecordForm.unique]
    cases readMembers members slots false room [] <;> rfl

/-- A record is what was met of it, in the order of its slots, if all that was not met may be left
out. -/
theorem assemble_eq {slots : List Slot} {met : List (String × Option Json)}
    (left : ∀ slot ∈ slots, met.lookup slot.1 = none → slot.2.1 = .optional) (stop : Nat) :
    assemble slots met stop =
      .ok (slots.filterMap fun slot => (met.lookup slot.1).join.map (slot.1, ·)) := by
  induction slots with
  | nil => rfl
  | cons slot slots ih =>
    obtain ⟨name, presence, shape⟩ := slot
    rw [List.forall_mem_cons] at left
    have rest := ih left.2
    cases found : met.lookup name with
    | none =>
      obtain rfl : presence = .optional := left.1 found
      simp [assemble, found, rest]
    | some value? =>
      cases value? with
      | none => simp [assemble, found, rest]
      | some value => simp [assemble, found, rest, Except.map]

/-- What is met with one member, where other members were met before. -/
def meeting (key : Key) (node : Node) (slots : List Slot) (unique : Bool) (room : Nat)
    (isMet : String → Bool) : Except Fault (List (String × Option Json)) :=
  key.text.bind fun name =>
    match slots.lookup name with
    | none => node.skip.map fun _ => []
    | some (presence, shape) =>
      if unique && isMet name then .error (blame (.duplicateField name) key.abandoned)
      else if presence.acceptsNull && node.isNull then .ok [(name, none)]
      else (node.read shape room).map fun value => [(name, some value)]

theorem readMembers_meeting (key : Key) (node : Node) (nodes : List (Key × Node))
    (slots : List Slot) (unique : Bool) (room : Nat) (met : List (String × Option Json)) :
    readMembers ((key, node) :: nodes) slots unique room met =
      (meeting key node slots unique room fun name => (met.lookup name).isSome).bind fun new =>
        readMembers nodes slots unique room (new ++ met) := by
  rw [readMembers, meeting]
  cases key.text with
  | error fault => rfl
  | ok name =>
    simp only [Except.bind]
    cases slots.lookup name with
    | none => cases node.skip <;> rfl
    | some slot =>
      obtain ⟨presence, shape⟩ := slot
      dsimp only
      split
      · rfl
      · split
        · rfl
        · cases node.read shape room <;> rfl

theorem readMembers_append (first second : List (Key × Node)) (slots : List Slot) (unique : Bool)
    (room : Nat) (met : List (String × Option Json)) :
    readMembers (first ++ second) slots unique room met =
      (readMembers first slots unique room met).bind fun met =>
        readMembers second slots unique room met := by
  induction first generalizing met with
  | nil => rfl
  | cons member first ih =>
    obtain ⟨key, node⟩ := member
    rw [List.cons_append, readMembers_meeting, readMembers_meeting]
    cases meeting key node slots unique room fun name => (met.lookup name).isSome with
    | error fault => rfl
    | ok new => exact ih (new ++ met)

theorem exists_readMembers (nodes : List (Key × Node)) (slots : List Slot) (room : Nat)
    (added met : List (String × Option Json)) (name : String) :
    ∃ result : Except Fault (List (String × Option Json)), ∀ value,
      readMembers nodes slots true room (added ++ (name, value) :: met) =
        result.map (· ++ (name, value) :: met) := by
  induction nodes generalizing added with
  | nil => exact ⟨.ok added, fun value => rfl⟩
  | cons node nodes ih =>
    obtain ⟨key, node⟩ := node
    have isMet (value : Option Json) (other : String) :
        ((added ++ (name, value) :: met).lookup other).isSome =
          ((added ++ (name, none) :: met).lookup other).isSome := by
      rw [List.lookup_append, List.lookup_append, List.lookup_cons, List.lookup_cons]
      cases added.lookup other <;> cases other == name <;> rfl
    simp only [readMembers_meeting, isMet]
    cases meeting key node slots true room
        fun other => ((added ++ (name, none) :: met).lookup other).isSome with
    | error fault => exact ⟨.error fault, fun value => rfl⟩
    | ok new =>
      obtain ⟨result, rest⟩ := ih (new ++ added)
      refine ⟨result, fun value => ?_⟩
      rw [← rest value, List.append_assoc]
      rfl

theorem readPositions_cons (item : Node) (items : List Node) (name : String) (presence : Presence)
    (shape : Shape) (slots : List Slot) (short : Bool) (index : Nat) (expected : String) (room : Nat)
    (ending : Ending) :
    readPositions (item :: items) ((name, presence, shape) :: slots) short index expected room
        ending =
      if presence.acceptsNull && item.isNull then
        readPositions items slots short (index + 1) expected room ending
      else (item.read shape room).bind fun value =>
        (readPositions items slots short (index + 1) expected room ending).map
          ((name, value) :: ·) := by
  rw [readPositions]
  split
  · rfl
  · cases item.read shape room <;> rfl

theorem Node.read_any (node : Node) (room : Nat) :
    node.read .any room = (node.value room).map Tree.json := by
  cases node <;> rfl

theorem Node.read_string (node : Node) (room : Nat) : node.read .string room = node.text := by
  cases node <;> rfl

def nodeUnder? (nodes : List (Key × Node)) (name : String) : Option Node :=
  (nodes.find? fun node => node.1.text.toOption = some name).map Prod.snd

/-- The node of a member of a record: under its name in an object, at its place in a list. -/
def Node.member? (node : Node) (names : List String) (name : String) : Option Node :=
  match node with
  | .object _ members _ => nodeUnder? members name
  | .array _ _ items _ => (names.zip items).lookup name
  | _ => none

theorem nodeUnder?_cons {key : Key} {other : String} (text : key.text = .ok other) (node : Node)
    (nodes : List (Key × Node)) (name : String) :
    nodeUnder? ((key, node) :: nodes) name =
      if other = name then some node else nodeUnder? nodes name := by
  by_cases eq : other = name <;> simp [nodeUnder?, text, Except.toOption, eq]

/-- What is met of a member with the node that stands for it: a value, or null for none. -/
inductive Met (presence : Presence) (shape : Shape) (room : Nat) : Node → Option Json → Prop where
  | value {node : Node} {json : Json} (read : node.read shape room = .ok json) :
    Met presence shape room node (some json)
  | null {node : Node} (accepts : presence.acceptsNull = true) (null : node.isNull = true) :
    Met presence shape room node none

/-- What fills the slot of a member: what is met with its node, or what stands for a member that is
missing. -/
inductive SlotRead (presence : Presence) (shape : Shape) (room : Nat) :
    Option Node → Option Json → Prop where
  | met {node : Node} {value? : Option Json} (met : Met presence shape room node value?) :
    SlotRead presence shape room (some node) value?
  | left (optional : presence = .optional) : SlotRead presence shape room none none
  | filled {json : Json} (defaulted : presence = .defaulted json) :
    SlotRead presence shape room none (some json)

theorem SlotRead.exists_node {shape : Shape} {room : Nat} {node? : Option Node}
    {value? : Option Json} {json : Json} (read : SlotRead .optional shape room node? value?)
    (found : value? = some json) : ∃ node, node? = some node ∧ node.read shape room = .ok json := by
  subst found
  cases read with
  | met met =>
    cases met with
    | value value => exact ⟨_, rfl, value⟩
  | filled defaulted => cases defaulted

theorem SlotRead.text {presence : Presence} {room : Nat} {node? : Option Node} {value? : Option Json}
    (read : SlotRead presence .string room node? value?)
    (blank : ∀ json, presence = .defaulted json → json = .string "") :
    (value?.bind string?).getD "" =
      (node?.bind fun node => node.text.toOption.bind string?).getD "" := by
  cases read with
  | @met node _ met =>
    cases met with
    | @value json value =>
      rw [node.read_string] at value
      simp only [Option.bind_some, value, Except.toOption]
    | null accepts null =>
      cases node with
      | scalar value start stop =>
        cases value with
        | null => rfl
        | _ => cases null
      | _ => cases null
  | left optional => rfl
  | filled defaulted =>
    rw [blank _ defaulted]
    rfl

theorem SlotRead.exists_tree {room : Nat} {node? : Option Node} {value? : Option Json}
    (read : SlotRead .optional .any room node? value?) :
    ∃ tree? : Option Tree, node?.map (·.value room) = tree?.map .ok ∧
      (value? = tree?.map Tree.json ∨ value? = none ∧ tree? = some .null) := by
  cases read with
  | @met node _ met =>
    cases met with
    | value any =>
      obtain ⟨tree, value, rfl⟩ := map_eq_ok (node.read_any room ▸ any)
      rw [Option.map_some, value]
      exact ⟨some tree, rfl, .inl rfl⟩
    | null accepts null =>
      refine ⟨some .null, ?_, .inr ⟨rfl, rfl⟩⟩
      cases node with
      | scalar value start stop => cases value <;> first | rfl | cases null
      | _ => cases null
  | left optional => exact ⟨none, rfl, .inl rfl⟩
  | filled defaulted => cases defaulted

theorem readMembers_cons {key : Key} {node : Node} {nodes : List (Key × Node)} {slots : List Slot}
    {room : Nat} {met result : List (String × Option Json)}
    (read : readMembers ((key, node) :: nodes) slots true room met = .ok result) :
    ∃ name, key.text = .ok name ∧
      ((slots.lookup name = none ∧ readMembers nodes slots true room met = .ok result) ∨
        ∃ presence shape value?, slots.lookup name = some (presence, shape) ∧
          met.lookup name = none ∧ Met presence shape room node value? ∧
          readMembers nodes slots true room ((name, value?) :: met) = .ok result) := by
  rw [readMembers_meeting] at read
  obtain ⟨new, meets, rest⟩ := bind_eq_ok read
  obtain ⟨name, text, meets⟩ := bind_eq_ok meets
  refine ⟨name, text, ?_⟩
  dsimp only at meets
  cases known : slots.lookup name with
  | none =>
    rw [known] at meets
    obtain ⟨-, -, rfl⟩ := map_eq_ok meets
    exact .inl ⟨rfl, rest⟩
  | some slot =>
    obtain ⟨presence, shape⟩ := slot
    rw [known] at meets
    dsimp only at meets
    split at meets
    · cases meets
    · rename_i unmet
      rw [Bool.true_and, Option.not_isSome_iff_eq_none] at unmet
      split at meets
      · rename_i null
        cases meets
        rw [Bool.and_eq_true] at null
        exact .inr ⟨presence, shape, none, rfl, unmet, .null null.1 null.2, rest⟩
      · obtain ⟨json, value, rfl⟩ := map_eq_ok meets
        exact .inr ⟨presence, shape, some json, rfl, unmet, .value value, rest⟩

theorem lookup_cons_of_ne {α : Type} {other name : String} (ne : other ≠ name) (value : α)
    (entries : List (String × α)) :
    ((other, value) :: entries).lookup name = entries.lookup name := by
  rw [List.lookup_cons, beq_eq_false_iff_ne.2 (Ne.symm ne)]

theorem lookup_readMembers_of_met {nodes : List (Key × Node)} {slots : List Slot} {room : Nat}
    {met result : List (String × Option Json)} {name : String} {entry : Option Json}
    (read : readMembers nodes slots true room met = .ok result)
    (known : slots.lookup name ≠ none) (isMet : met.lookup name = some entry) :
    result.lookup name = some entry ∧ ∀ node ∈ nodes, node.1.text ≠ .ok name := by
  induction nodes generalizing met with
  | nil =>
    cases read
    exact ⟨isMet, by simp⟩
  | cons node nodes ih =>
    obtain ⟨key, node⟩ := node
    obtain ⟨other, text, ⟨unknown, rest⟩ | ⟨-, -, value?, -, unmet, -, rest⟩⟩ := readMembers_cons read
    · obtain ⟨same, others⟩ := ih rest isMet
      refine ⟨same, List.forall_mem_cons.2 ⟨fun eq => ?_, others⟩⟩
      rw [text, Except.ok.injEq] at eq
      exact known (eq ▸ unknown)
    -- a repeated member is a fault, so this one is another
    · have ne : other ≠ name := by
        rintro rfl
        rw [unmet] at isMet
        cases isMet
      obtain ⟨same, others⟩ := ih rest ((lookup_cons_of_ne ne value? met).trans isMet)
      refine ⟨same, List.forall_mem_cons.2 ⟨fun eq => ?_, others⟩⟩
      rw [text, Except.ok.injEq] at eq
      exact ne eq

/-- A member that a record knows is met with the node under its name, and no other node has that
name. -/
theorem met_of_readMembers {nodes : List (Key × Node)} {slots : List Slot} {room : Nat}
    {met result : List (String × Option Json)} {name : String} {presence : Presence} {shape : Shape}
    (read : readMembers nodes slots true room met = .ok result)
    (known : slots.lookup name = some (presence, shape)) (unmet : met.lookup name = none) :
    Option.Rel (Met presence shape room) (nodeUnder? nodes name) (result.lookup name) ∧
      ∀ node ∈ nodes, node.1.text = .ok name → nodeUnder? nodes name = some node.2 := by
  induction nodes generalizing met with
  | nil =>
    cases read
    rw [unmet]
    exact ⟨.none, by simp⟩
  | cons node nodes ih =>
    obtain ⟨key, first⟩ := node
    obtain ⟨other, text, ⟨unknown, rest⟩ | ⟨presence', shape', value?, slot, -, meets, rest⟩⟩ :=
      readMembers_cons read
    · have ne : other ≠ name := by
        rintro rfl
        cases unknown.symm.trans known
      rw [nodeUnder?_cons text, if_neg ne]
      obtain ⟨rel, only⟩ := ih rest unmet
      refine ⟨rel, List.forall_mem_cons.2 ⟨fun eq => ?_, only⟩⟩
      rw [text, Except.ok.injEq] at eq
      exact absurd eq ne
    -- either the name is met here and not again, or it is met further on
    · rw [nodeUnder?_cons text]
      by_cases eq : other = name
      · subst eq
        cases slot.symm.trans known
        obtain ⟨same, others⟩ := lookup_readMembers_of_met rest (by simp [known])
          List.lookup_cons_self
        rw [if_pos rfl, same]
        refine ⟨.some meets, List.forall_mem_cons.2 ⟨fun _ => rfl, fun node mem eq => ?_⟩⟩
        exact absurd eq (others node mem)
      · rw [if_neg eq]
        obtain ⟨rel, only⟩ := ih rest ((lookup_cons_of_ne eq value? met).trans unmet)
        refine ⟨rel, List.forall_mem_cons.2 ⟨fun same => ?_, only⟩⟩
        rw [text, Except.ok.injEq] at same
        exact absurd same eq

/-! ## Slots that are filled -/

/-- The members of a record, slot by slot: a slot is filled with a value, or left out. -/
inductive Fills (fills : Slot → Option Json → Prop) : List Slot → Entries Json → Prop where
  | nil : Fills fills [] []
  | value {slot : Slot} {slots : List Slot} {json : Json} {members : Entries Json}
    (fill : fills slot (some json)) (rest : Fills fills slots members) :
    Fills fills (slot :: slots) ((slot.1, json) :: members)
  | left {slot : Slot} {slots : List Slot} {members : Entries Json} (fill : fills slot none)
    (rest : Fills fills slots members) : Fills fills (slot :: slots) members

namespace Fills

variable {fills others : Slot → Option Json → Prop} {slots : List Slot} {members : Entries Json}

theorem keys_sublist (filled : Fills fills slots members) :
    (Entries.keys members).Sublist (slots.map Prod.fst) := by
  induction filled with
  | nil => exact .slnil
  | value fill rest ih => exact ih.cons_cons _
  | left fill rest ih => exact ih.cons _

theorem imp (filled : Fills fills slots members)
    (weaker : ∀ slot ∈ slots, ∀ value?, fills slot value? → others slot value?) :
    Fills others slots members := by
  induction filled with
  | nil => exact .nil
  | value fill rest ih =>
    rw [List.forall_mem_cons] at weaker
    exact .value (weaker.1 _ fill) (ih weaker.2)
  | left fill rest ih =>
    rw [List.forall_mem_cons] at weaker
    exact .left (weaker.1 _ fill) (ih weaker.2)

theorem find? (filled : Fills fills slots members) (nodup : (slots.map Prod.fst).Nodup) {slot : Slot}
    (mem : slot ∈ slots) : fills slot (Entries.find? members slot.1) := by
  induction filled with
  | nil => cases mem
  | @value first slots json members fill rest ih =>
    rw [List.map_cons, List.nodup_cons] at nodup
    rcases List.mem_cons.1 mem with rfl | mem
    · rwa [Entries.find?, if_pos rfl]
    · have ne : first.1 ≠ slot.1 := fun eq => nodup.1 (eq ▸ List.mem_map_of_mem mem)
      rw [Entries.find?, if_neg ne]
      exact ih nodup.2 mem
  | @left first slots members fill rest ih =>
    rw [List.map_cons, List.nodup_cons] at nodup
    rcases List.mem_cons.1 mem with rfl | mem
    · have absent : slot.1 ∉ Entries.keys members := fun mem => nodup.1 (rest.keys_sublist.subset mem)
      rwa [Entries.find?_eq_none_of_not_mem absent]
    · exact ih nodup.2 mem

theorem exists_slot (filled : Fills fills slots members) :
    ∀ member ∈ members, ∃ slot ∈ slots, slot.1 = member.1 ∧ fills slot (some member.2) := by
  induction filled with
  | nil => simp
  | @value slot slots json members fill rest ih =>
    refine List.forall_mem_cons.2 ⟨⟨slot, List.mem_cons_self, rfl, fill⟩, fun member mem => ?_⟩
    obtain ⟨other, listed, fills⟩ := ih member mem
    exact ⟨other, List.mem_cons_of_mem slot listed, fills⟩
  | @left slot slots members fill rest ih =>
    intro member mem
    obtain ⟨other, listed, fills⟩ := ih member mem
    exact ⟨other, List.mem_cons_of_mem slot listed, fills⟩

theorem filterMap_find? (filled : Fills fills slots members) (nodup : (slots.map Prod.fst).Nodup) :
    (slots.filterMap fun slot => (Entries.find? members slot.1).map (slot.1, ·)) = members := by
  induction filled with
  | nil => rfl
  | @value slot slots json members fill rest ih =>
    rw [List.map_cons, List.nodup_cons] at nodup
    have behind : (slots.filterMap fun other =>
        (Entries.find? ((slot.1, json) :: members) other.1).map (other.1, ·)) =
          slots.filterMap fun other => (Entries.find? members other.1).map (other.1, ·) := by
      refine List.filterMap_congr fun other mem => ?_
      have ne : slot.1 ≠ other.1 := fun eq => nodup.1 (eq ▸ List.mem_map_of_mem mem)
      rw [Entries.find?, if_neg ne]
    rw [List.filterMap_cons, behind, ih nodup.2, Entries.find?, if_pos rfl]
    rfl
  | @left slot slots members fill rest ih =>
    rw [List.map_cons, List.nodup_cons] at nodup
    have absent : slot.1 ∉ Entries.keys members := fun mem => nodup.1 (rest.keys_sublist.subset mem)
    rw [List.filterMap_cons, Entries.find?_eq_none_of_not_mem absent, ih nodup.2]
    rfl

end Fills

inductive Filled (presence : Presence) : Option (Option Json) → Option Json → Prop where
  | met (value? : Option Json) : Filled presence (some value?) value?
  | left (optional : presence = .optional) : Filled presence none none
  | default {json : Json} (defaulted : presence = .defaulted json) : Filled presence none (some json)

theorem fills_of_assemble {slots : List Slot} {met : List (String × Option Json)} {stop : Nat}
    {members : List (String × Json)} (assembled : assemble slots met stop = .ok members) :
    Fills (fun slot => Filled slot.2.1 (met.lookup slot.1)) slots members := by
  induction slots generalizing members with
  | nil =>
    cases assembled
    exact .nil
  | cons slot slots ih =>
    obtain ⟨name, presence, shape⟩ := slot
    rw [assemble.eq_def] at assembled
    dsimp only at assembled
    split at assembled
    · rename_i json isMet
      obtain ⟨rest, others, rfl⟩ := map_eq_ok assembled
      exact .value (by rw [isMet]; exact .met _) (ih others)
    · rename_i isMet
      exact .left (by rw [isMet]; exact .met _) (ih assembled)
    · rename_i unmet
      exact .left (by rw [unmet]; exact .left rfl) (ih assembled)
    · rename_i unmet
      obtain ⟨rest, others, rfl⟩ := map_eq_ok assembled
      exact .value (by rw [unmet]; exact .default rfl) (ih others)
    · cases assembled

theorem fills_of_assembleShort {slots : List Slot} {short : Bool} {index : Nat} {expected : String}
    {stop : Nat} {members : List (String × Json)}
    (assembled : assembleShort slots short index expected stop = .ok members) :
    Fills (fun slot => Filled slot.2.1 none) slots members := by
  induction slots generalizing members index with
  | nil =>
    cases assembled
    exact .nil
  | cons slot slots ih =>
    obtain ⟨name, presence, shape⟩ := slot
    rw [assembleShort.eq_def] at assembled
    dsimp only at assembled
    split at assembled
    · obtain ⟨rest, others, rfl⟩ := map_eq_ok assembled
      exact .value (.default rfl) (ih others)
    · exact .left (.left rfl) (ih assembled)
    · cases assembled

theorem SlotRead.of_filled {presence : Presence} {shape : Shape} {room : Nat} {node : Option Node}
    {met : Option (Option Json)} {value? : Option Json}
    (rel : Option.Rel (Met presence shape room) node met) (filled : Filled presence met value?) :
    SlotRead presence shape room node value? := by
  cases rel with
  | none =>
    cases filled with
    | left optional => exact .left optional
    | default defaulted => exact .filled defaulted
  | some meets =>
    cases filled
    exact .met meets

theorem fills_of_readPositions {items : List Node} {slots : List Slot} {short : Bool} {index : Nat}
    {expected : String} {room : Nat} {ending : Ending} {members : List (String × Json)}
    (read : readPositions items slots short index expected room ending = .ok members)
    (nodup : (slots.map Prod.fst).Nodup) :
    Fills (fun slot => SlotRead slot.2.1 slot.2.2 room
      (((slots.map Prod.fst).zip items).lookup slot.1)) slots members := by
  induction items generalizing slots index members with
  | nil =>
    cases slots with
    | nil =>
      obtain ⟨-, -, rfl⟩ := map_eq_ok read
      exact .nil
    | cons slot slots =>
      obtain ⟨stop, -, assembled⟩ := bind_eq_ok read
      refine (fills_of_assembleShort assembled).imp fun other _ value? filled => ?_
      rw [List.zip_nil_right]
      exact .of_filled .none filled
  | cons item items ih =>
    cases slots with
    | nil => cases read
    | cons slot slots =>
      obtain ⟨name, presence, shape⟩ := slot
      rw [List.map_cons, List.nodup_cons] at nodup
      rw [readPositions_cons] at read
      have first : ((((name, presence, shape) :: slots).map Prod.fst).zip (item :: items)).lookup
          name = some item := List.lookup_cons_self
      -- the other slots have other names, and their items stand behind the first one
      have behind {others : Entries Json}
          (rest : readPositions items slots short (index + 1) expected room ending = .ok others) :
          Fills (fun slot => SlotRead slot.2.1 slot.2.2 room
            (((((name, presence, shape) :: slots).map Prod.fst).zip (item :: items)).lookup slot.1))
            slots others := by
        refine (ih rest nodup.2).imp fun other mem value? slot_read => ?_
        have listed : other.1 ∈ slots.map Prod.fst := List.mem_map_of_mem mem
        have ne : name ≠ other.1 := fun eq => nodup.1 (eq ▸ listed)
        rwa [List.map_cons, List.zip_cons_cons, lookup_cons_of_ne ne]
      split at read
      · rename_i null
        rw [Bool.and_eq_true] at null
        exact .left (by rw [first]; exact .met (.null null.1 null.2)) (behind read)
      · obtain ⟨json, value, rest⟩ := bind_eq_ok read
        obtain ⟨others, positions, rfl⟩ := map_eq_ok rest
        exact .value (by rw [first]; exact .met (.value value)) (behind positions)

theorem lookup_of_mem {α : Type} {entries : List (String × α)}
    (nodup : (entries.map Prod.fst).Nodup) {entry : String × α} (mem : entry ∈ entries) :
    entries.lookup entry.1 = some entry.2 :=
  (Entries.lookup_eq_find? entries entry.1).trans (Entries.find?_of_mem nodup mem)

/-- A record is read slot by slot, each slot from the node of its member. -/
theorem fills_of_record {recordName : String} {short : Bool} {slots : List Slot} {node : Node}
    {room : Nat} {json : Json} (nodup : (slots.map Prod.fst).Nodup)
    (read : node.read (.record recordName (.strict short) slots) room = .ok json) :
    ∃ less members, room = less + 1 ∧ json = .object members ∧
      Fills (fun slot => SlotRead slot.2.1 slot.2.2 less
        (node.member? (slots.map Prod.fst) slot.1)) slots members := by
  cases node with
  | scalar | broken => cases read
  | array start abandoned items ending =>
    cases room with
    | zero => cases read
    | succ room =>
      obtain ⟨members, positions, rfl⟩ := map_eq_ok read
      exact ⟨room, members, rfl, rfl, fills_of_readPositions positions nodup⟩
  | object start nodes ending =>
    cases room with
    | zero => cases read
    | succ room =>
      rw [read_object] at read
      obtain ⟨met, met_eq, rest⟩ := bind_eq_ok read
      obtain ⟨stop, -, assembled⟩ := bind_eq_ok rest
      obtain ⟨members, in_order, rfl⟩ := map_eq_ok assembled
      refine ⟨room, members, rfl, rfl, ?_⟩
      refine (fills_of_assemble in_order).imp fun slot mem value? filled => ?_
      exact .of_filled (met_of_readMembers met_eq (lookup_of_mem nodup mem) rfl).1 filled

theorem node_of_member {recordName : String} {short : Bool} {slots : List Slot} {node : Node}
    {room : Nat} {json : Json} (nodup : (slots.map Prod.fst).Nodup)
    (read : node.read (.record recordName (.strict short) slots) (room + 1) = .ok json)
    {slot : Slot} (mem : slot ∈ slots) {tree : Tree} (whole : node.value (room + 1) = .ok tree)
    {value : Json} (member : tree.json.member? slot.1 = some value) :
    ∃ inner part, node.member? (slots.map Prod.fst) slot.1 = some inner ∧
      inner.value room = .ok part ∧ part.json = value := by
  cases node with
  | scalar | broken => cases read
  | array start abandoned items ending =>
    -- a list has no members as a value, so that there is nothing to compare
    obtain ⟨trees, -, rfl⟩ := map_eq_ok whole
    cases member
  | object start nodes ending =>
    rw [read_object] at read
    obtain ⟨met, met_eq, -⟩ := bind_eq_ok read
    obtain ⟨-, only⟩ := met_of_readMembers met_eq (lookup_of_mem nodup mem) rfl
    obtain ⟨entries, values, rfl⟩ := map_eq_ok whole
    obtain ⟨_, rfl, pairs⟩ := memberValues_eq_ok values
    change Entries.find? (Entries.mapValues Tree.json (Entries.sort _)) slot.1 = _ at member
    -- a value keeps the last of repeated members, and here only one node has the name
    rw [Entries.find?_mapValues, Entries.find?_sort] at member
    obtain ⟨part, last, rfl⟩ := Option.map_eq_some_iff.1 member
    obtain ⟨inner, inNodes, text, value⟩ :=
      exists_of_forall₂ pairs _ (List.mem_reverse.1 (Entries.mem_of_find? last))
    exact ⟨inner.2, part, only inner inNodes text, value, rfl⟩

end Admission.Json
