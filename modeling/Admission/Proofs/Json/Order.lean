import Admission.Proofs.Json.Alike

/-! The order of members. Where no name repeats it does not matter to any reader, and members that a
record does not know do not matter to it at all. -/

set_option autoImplicit false

namespace Admission

namespace Entries

variable {α : Type}

theorem keys_perm {entries others : Entries α} (perm : entries.Perm others) :
    (keys entries).Perm (keys others) :=
  perm.map Prod.fst

theorem find?_perm {entries others : Entries α} (perm : entries.Perm others)
    (nodup : (keys entries).Nodup) (key : String) : find? entries key = find? others key := by
  have nodup' : (keys others).Nodup := (keys_perm perm).nodup_iff.1 nodup
  refine Option.ext fun value => ⟨fun found => ?_, fun found => ?_⟩
  · exact find?_of_mem nodup' (perm.mem_iff.1 (mem_of_find? found))
  · exact find?_of_mem nodup (perm.mem_iff.2 (mem_of_find? found))

end Entries

theorem SortedMap.ofList_perm {α : Type} {entries others : Entries α} (perm : entries.Perm others)
    (nodup : entries.keys.Nodup) : ofList entries = ofList others := by
  refine ext_find? fun key => ?_
  rw [find?_ofList nodup, find?_ofList ((Entries.keys_perm perm).nodup_iff.1 nodup),
    Entries.find?_perm perm nodup]

namespace Json

theorem map_bind {α β γ : Type} (result : Except Fault α) (f : α → β) (g : β → Except Fault γ) :
    (result.map f).bind g = result.bind fun a => g (f a) := by
  cases result <;> rfl

theorem bind_map {α β γ : Type} (result : Except Fault α) (f : α → Except Fault β) (g : β → γ) :
    (result.bind f).map g = result.bind fun a => (f a).map g := by
  cases result <;> rfl

/-- Two results hold the same in some order, or both are faults. -/
inductive Shuffled {α : Type} : Except Fault (List α) → Except Fault (List α) → Prop where
  | ok {values others : List α} (perm : values.Perm others) : Shuffled (.ok values) (.ok others)
  | error (fault other : Fault) : Shuffled (.error fault) (.error other)

namespace Shuffled

variable {α β : Type} {first second third : Except Fault (List α)}

theorem refl (result : Except Fault (List α)) : Shuffled result result := by
  cases result with
  | ok values => exact .ok (.refl values)
  | error fault => exact .error fault fault

theorem trans (one : Shuffled first second) (other : Shuffled second third) :
    Shuffled first third := by
  cases one with
  | ok perm =>
    cases other with
    | ok perm' => exact .ok (perm.trans perm')
  | error fault =>
    cases other
    exact .error fault _

theorem bind (shuffled : Shuffled first second) {f g : List α → Except Fault β}
    (rest : ∀ values others, first = .ok values → values.Perm others → Agree (f values) (g others)) :
    Agree (first.bind f) (second.bind g) := by
  cases shuffled with
  | ok perm => exact rest _ _ rfl perm
  | error fault other => exact .error fault other

end Shuffled

theorem readAll_cons {α β : Type} (read : α → Except Fault β) (part : α) (parts : List α) :
    readAll read (part :: parts) =
      (read part).bind fun value => (readAll read parts).map (value :: ·) :=
  rfl

theorem readAll_perm {α β : Type} (read : α → Except Fault β) {parts others : List α}
    (perm : parts.Perm others) : Shuffled (readAll read parts) (readAll read others) := by
  induction perm with
  | nil => exact .refl _
  | trans _ _ first second => exact first.trans second
  | @cons part parts others _ ih =>
    rw [readAll_cons, readAll_cons]
    cases read part with
    | error fault => exact .error _ _
    | ok value =>
      simp only [Except.bind]
      generalize readAll read parts = first, readAll read others = second at ih ⊢
      cases ih with
      | ok perm => exact .ok (perm.cons value)
      | error fault other => exact .error _ _
  | swap part other parts =>
    simp only [readAll_cons]
    cases read part <;> cases read other <;> cases readAll read parts
    case ok.ok.ok value value' values => exact .ok (.swap ..)
    all_goals exact .error _ _

def names (members : List (Key × Node)) : List String :=
  members.filterMap fun member => member.1.text.toOption

theorem names_cons {key : Key} {name : String} (text : key.text = .ok name) (node : Node)
    (members : List (Key × Node)) : names ((key, node) :: members) = name :: names members := by
  simp [names, text, Except.toOption]

theorem keys_of_readAll {α : Type} {read : Node → Except Fault α} {members : List (Key × Node)}
    {entries : Entries α} (all : readAll (readEntry read) members = .ok entries) :
    Entries.keys entries = names members := by
  induction members generalizing entries with
  | nil =>
    cases all
    rfl
  | cons member members ih =>
    obtain ⟨key, node⟩ := member
    obtain ⟨entry, first, behind⟩ := bind_eq_ok all
    obtain ⟨others, rest, rfl⟩ := map_eq_ok behind
    obtain ⟨name, text, named⟩ := bind_eq_ok first
    obtain ⟨value, -, rfl⟩ := map_eq_ok named
    rw [Entries.keys_cons, ih rest, names_cons text]

section

variable (slots : List Slot) (unique : Bool) (room : Nat)

def meetNew (member : Key × Node) : Except Fault (List (String × Option Json)) :=
  meeting member.1 member.2 slots unique room fun _ => false

theorem meeting_unmet {key : Key} {node : Node} {met : List (String × Option Json)}
    (unmet : ∀ name, key.text = .ok name → met.lookup name = none) :
    meeting key node slots unique room (fun name => (met.lookup name).isSome) =
      meetNew slots unique room (key, node) := by
  rw [meetNew, meeting, meeting]
  cases text : key.text with
  | error fault => rfl
  | ok name => simp [Except.bind, unmet name text]

variable {slots unique room}

theorem keys_meetNew {member : Key × Node} {new : List (String × Option Json)}
    (meets : meetNew slots unique room member = .ok new) :
    ∃ name, member.1.text = .ok name ∧ (Entries.keys new).Sublist [name] := by
  obtain ⟨name, text, meets⟩ := bind_eq_ok meets
  refine ⟨name, text, ?_⟩
  dsimp only at meets
  split at meets
  · obtain ⟨-, -, rfl⟩ := map_eq_ok meets
    exact List.nil_sublist _
  · rw [Bool.and_false, if_neg Bool.false_ne_true] at meets
    split at meets
    · cases meets
      exact .refl _
    · obtain ⟨value, -, rfl⟩ := map_eq_ok meets
      exact .refl _

theorem keys_flatten_sublist {members : List (Key × Node)} {news : List (List (String × Option Json))}
    (all : readAll (meetNew slots unique room) members = .ok news) :
    (Entries.keys news.flatten).Sublist (names members) := by
  induction members generalizing news with
  | nil =>
    cases all
    exact .refl _
  | cons member members ih =>
    obtain ⟨new, first, behind⟩ := bind_eq_ok all
    obtain ⟨others, rest, rfl⟩ := map_eq_ok behind
    obtain ⟨name, text, keys⟩ := keys_meetNew first
    rw [List.flatten_cons, Entries.keys, List.map_append, names_cons text]
    exact keys.append (ih rest)

/-- Members of distinct names are met independently of each other. -/
theorem readMembers_eq {members : List (Key × Node)} {met : List (String × Option Json)}
    (distinct : (names members).Nodup) (unmet : ∀ name ∈ names members, met.lookup name = none) :
    readMembers members slots unique room met =
      (readAll (meetNew slots unique room) members).map fun news => news.reverse.flatten ++ met := by
  induction members generalizing met with
  | nil => rfl
  | cons member members ih =>
    obtain ⟨key, node⟩ := member
    have first : ∀ name, key.text = .ok name → met.lookup name = none := fun name text =>
      unmet name (by simp [names_cons text])
    rw [readMembers_meeting, meeting_unmet slots unique room first, readAll_cons]
    cases meets : meetNew slots unique room (key, node) with
    | error fault => rfl
    | ok new =>
      obtain ⟨name, text, keys⟩ := keys_meetNew meets
      rw [names_cons text, List.nodup_cons] at distinct
      -- what is met here has another name than the members behind
      have behind : ∀ other ∈ names members, (new ++ met).lookup other = none := by
        intro other mem
        have ne : other ∉ Entries.keys new := fun inNew => by
          obtain rfl := List.mem_singleton.1 (keys.subset inNew)
          exact distinct.1 mem
        have unmet := unmet other (by simp [names_cons text, mem])
        rw [List.lookup_append, Entries.lookup_eq_find?, Entries.find?_eq_none_of_not_mem ne, unmet]
        rfl
      simp only [Except.bind, ih distinct.2 behind]
      cases readAll (meetNew slots unique room) members <;> simp [Except.map]

end

theorem assemble_congr {slots : List Slot} {met other : List (String × Option Json)}
    (same : ∀ name, met.lookup name = other.lookup name) (stop : Nat) :
    assemble slots met stop = assemble slots other stop := by
  induction slots with
  | nil => rfl
  | cons slot slots ih =>
    simp only [assemble, same, ih]

theorem lookup_perm {met other : List (String × Option Json)} (perm : met.Perm other)
    (nodup : (Entries.keys met).Nodup) (name : String) : met.lookup name = other.lookup name := by
  rw [Entries.lookup_eq_find?, Entries.lookup_eq_find?, Entries.find?_perm perm nodup]

section

variable {members others : List (Key × Node)} (perm : members.Perm others)
  (distinct : (names members).Nodup)

include perm distinct

theorem names_nodup_perm : (names others).Nodup :=
  (perm.filterMap _).nodup_iff.1 distinct

theorem read_record_perm (name : String) (form : RecordForm) (slots : List Slot)
    (start start' stop stop' room : Nat) :
    Agree ((Node.object start members (.closed stop)).read (.record name form slots) room)
      ((Node.object start' others (.closed stop')).read (.record name form slots) room) := by
  cases room with
  | zero => cases form <;> exact .error _ _
  | succ room =>
    rw [read_object, read_object, readMembers_eq distinct (fun _ _ => rfl),
      readMembers_eq (names_nodup_perm perm distinct) (fun _ _ => rfl), map_bind, map_bind]
    refine (readAll_perm _ perm).bind fun news others all shuffled => ?_
    -- both orders meet the same members, and what fills a slot is looked up by its name
    have met : (news.reverse.flatten ++ []).Perm (others.reverse.flatten ++ []) := by
      simpa using ((news.reverse_perm.trans shuffled).trans others.reverse_perm.symm).flatten
    have keys : (Entries.keys (news.reverse.flatten ++ [])).Nodup := by
      rw [List.append_nil, (Entries.keys_perm news.reverse_perm.flatten).nodup_iff]
      exact (keys_flatten_sublist all).nodup distinct
    simp only [assemble_congr (lookup_perm met keys)]
    exact (assemble_agree slots _ stop stop').map _

theorem readEntries_perm (shape : Shape) (room stop stop' : Nat) :
    Agree ((readEntries members shape room (.closed stop) []).map (Json.object <| Entries.sort ·))
      ((readEntries others shape room (.closed stop') []).map (Json.object <| Entries.sort ·)) := by
  rw [readEntries_eq, readEntries_eq, bind_map, bind_map]
  refine (readAll_perm _ perm).bind fun entries others all shuffled => ?_
  have keys : (Entries.keys entries).Nodup := keys_of_readAll all ▸ distinct
  have sorted : Entries.sort entries = Entries.sort others :=
    congrArg SortedMap.entries (SortedMap.ofList_perm shuffled keys)
  simp [Ending.check, Except.map, sorted, Agree.refl]

theorem memberValues_perm (room stop stop' : Nat) :
    Agree ((memberValues members room (.closed stop) []).map (Tree.object <| .ofList ·))
      ((memberValues others room (.closed stop') []).map (Tree.object <| .ofList ·)) := by
  rw [memberValues_eq, memberValues_eq, bind_map, bind_map]
  refine (readAll_perm _ perm).bind fun entries others all shuffled => ?_
  have keys : (Entries.keys entries).Nodup := keys_of_readAll all ▸ distinct
  simp [Ending.check, Except.map, SortedMap.ofList_perm shuffled keys, Agree.refl]

theorem choice_perm (start start' stop stop' : Nat) (names : List String) (room : Nat) :
    Agree ((Node.object start members (.closed stop)).choice names room)
      ((Node.object start' others (.closed stop')).choice names room) := by
  match members, perm with
  | [], perm =>
    obtain rfl := perm.nil_eq
    exact .error _ _
  | [member], perm =>
    obtain rfl := perm.singleton_eq
    have alike : List.Forall₂ MembersAlike [member] [member] := .cons ⟨.refl _, .refl _⟩ .nil
    exact choice_object_agree alike (.closed stop stop') ..
  | _ :: _ :: _, perm =>
    match others, perm.length_eq with
    | _ :: _ :: _, _ => exact .error _ _

theorem value_object_perm (start start' stop stop' room : Nat) :
    Agree ((Node.object start members (.closed stop)).value room)
      ((Node.object start' others (.closed stop')).value room) := by
  cases room with
  | zero => exact .error _ _
  | succ room => exact memberValues_perm perm distinct room stop stop'

/-- An object whose names do not repeat is read the same in every order of its members. -/
theorem Node.Alike.reorder (start start' stop stop' : Nat) :
    (Node.object start members (.closed stop)).Alike (.object start' others (.closed stop')) where
  value room := value_object_perm perm distinct ..
  as shape := {
    null := rfl
    skip := .ok ()
    read := fun room => by
      cases shape with
      | any => exact (value_object_perm perm distinct ..).map _
      | string | boolean | uint16 | list => exact .error _ _
      | choice names => exact choice_perm perm distinct ..
      | record name form slots => exact read_record_perm perm distinct ..
      | map value =>
        cases room with
        | zero => exact .error _ _
        | succ room => exact readEntries_perm perm distinct value room stop stop' }

end

section

variable {slots : List Slot} (recordName : String) (form : RecordForm)

theorem readMembers_unknown {key : Key} {node : Node} {name : String} (text : key.text = .ok name)
    (unknown : slots.lookup name = none) (skips : node.skip = .ok ())
    (before after : List (Key × Node)) (unique : Bool) (room : Nat)
    (met : List (String × Option Json)) :
    readMembers (before ++ (key, node) :: after) slots unique room met =
      readMembers (before ++ after) slots unique room met := by
  rw [readMembers_append, readMembers_append]
  congr 1
  funext met
  rw [readMembers_meeting]
  simp [meeting, text, unknown, skips, Except.bind, Except.map]

theorem alikeAs_unknown {key : Key} {node : Node} {name : String} (text : key.text = .ok name)
    (unknown : slots.lookup name = none) (skips : node.skip = .ok ())
    (before after : List (Key × Node)) (start stop : Nat) :
    (Node.object start (before ++ after) (.closed stop)).AlikeAs (.record recordName form slots)
      (.object start (before ++ (key, node) :: after) (.closed stop)) where
  null := rfl
  skip := .ok ()
  read room := by
    cases room with
    | zero => cases form <;> exact .error _ _
    | succ room =>
      rw [read_object, read_object, readMembers_unknown text unknown skips]
      exact .refl _

theorem MeetAlike.refl (member : Key × Node) : MeetAlike slots member member :=
  ⟨.refl _, .refl _, fun _ _ _ _ => (Node.Alike.refl _).as _⟩

/-- Of a member that a record knows it matters what is made of it in its slot. -/
theorem alikeAs_member {key : Key} {node other : Node} {name : String} {slot : Presence × Shape}
    (text : key.text = .ok name) (known : slots.lookup name = some slot)
    (alike : node.AlikeAs slot.2 other) (before after : List (Key × Node)) (start stop : Nat) :
    (Node.object start (before ++ (key, node) :: after) (.closed stop)).AlikeAs
      (.record recordName form slots)
      (.object start (before ++ (key, other) :: after) (.closed stop)) where
  null := rfl
  skip := .ok ()
  read room := by
    have same (members : List (Key × Node)) : List.Forall₂ (MeetAlike slots) members members :=
      List.forall₂_same.2 fun member _ => .refl member
    have meets : MeetAlike slots (key, node) (key, other) := by
      refine ⟨.refl _, alike.skip, fun name' slot' text' known' => ?_⟩
      cases text.symm.trans text'
      cases known.symm.trans known'
      exact alike
    exact read_object_agree (List.rel_append (same before) (.cons meets (same after)))
      (.closed stop stop) ..

theorem placesAlike_of_place {item other : Node} (before after : List Node)
    (alike : ∀ slot, slots[before.length]? = some slot → item.AlikeAs slot.2.2 other) :
    PlacesAlike slots (before ++ item :: after) (before ++ other :: after) := by
  induction before generalizing slots with
  | nil =>
    cases slots with
    | nil => exact .surplus ..
    | cons slot slots =>
      exact .cons (alike slot rfl)
        (placesAlike_of_forall₂ (List.forall₂_same.2 fun item _ => .refl item) slots)
  | cons first before ih =>
    cases slots with
    | nil => exact .surplus ..
    | cons slot slots => exact .cons ((Node.Alike.refl first).as _) (ih alike)

theorem alikeAs_place {item other : Node} (before after : List Node)
    (alike : ∀ slot, slots[before.length]? = some slot → item.AlikeAs slot.2.2 other)
    (start abandoned stop : Nat) :
    (Node.array start abandoned (before ++ item :: after) (.closed stop)).AlikeAs
      (.record recordName form slots)
      (.array start abandoned (before ++ other :: after) (.closed stop)) where
  null := rfl
  skip := .ok ()
  read room := by
    cases form with
    | lenient => cases room <;> exact .error _ _
    | strict short =>
      cases room with
      | zero => exact .error _ _
      | succ room =>
        have places := placesAlike_of_place before after alike
        exact (readPositions_agree places (.closed stop stop) ..).map _

end

end Json

end Admission
