import Admission.Proofs.Webhook.Resubmission

/-! What becomes of an object on which labels are set, and what is said about it: each label has its
new value, every other one the value it had, and a warning tells of each that had another value
before. Of labels that are set in turn the later ones win. -/

set_option autoImplicit false

namespace Admission.Labels

variable {σ : Type}

/-- A label that is there and gets another value. -/
structure Overwrite where
  key : String
  previous : String
  value : String

namespace Overwrite

def text (overwrite : Overwrite) : String :=
  changed overwrite.key overwrite.previous overwrite.value

structure Of (current given : SortedMap String) (overwrite : Overwrite) : Prop where
  previous : current.find? overwrite.key = some overwrite.previous
  value : given.find? overwrite.key = some overwrite.value
  ne : overwrite.previous ≠ overwrite.value

def of? (current : SortedMap String) (label : String × String) : Option Overwrite :=
  match current.find? label.1 with
  | some previous => if previous = label.2 then none else some ⟨label.1, previous, label.2⟩
  | none => none

theorem of?_eq_some_iff {current : SortedMap String} {label : String × String}
    {overwrite : Overwrite} : of? current label = some overwrite ↔
      label = (overwrite.key, overwrite.value) ∧
        current.find? overwrite.key = some overwrite.previous ∧
        overwrite.previous ≠ overwrite.value := by
  obtain ⟨key, given⟩ := label
  obtain ⟨name, previous, value⟩ := overwrite
  rw [of?]
  cases found : current.find? key with
  | none => grind
  | some held => grind

end Overwrite

/-- Each label that is overwritten is told of once, in the order of the keys, and nothing else is
said. -/
def Tells (current given : SortedMap String) (said : List String) : Prop :=
  ∃ overwrites : List Overwrite, said = overwrites.map Overwrite.text ∧
    (overwrites.map Overwrite.key).Pairwise (· < ·) ∧
    ∀ overwrite, overwrite ∈ overwrites ↔ overwrite.Of current given

theorem warnings_eq (current given : SortedMap String) : warnings current given =
    (given.entries.filterMap (Overwrite.of? current)).map Overwrite.text := by
  rw [List.map_filterMap, warnings]
  congr 1
  funext ⟨key, value⟩
  dsimp only [Overwrite.of?]
  cases current.find? key with
  | none => rfl
  | some previous =>
    by_cases same : previous = value
    · simp [same]
    · simp [same, Overwrite.text]

theorem tells_warnings (current given : SortedMap String) :
    Tells current given (warnings current given) := by
  refine ⟨_, warnings_eq current given, ?_, ?_⟩
  · rw [List.pairwise_map]
    have ascending : given.entries.Pairwise fun label other => label.1 < other.1 :=
      List.pairwise_map.1 given.sorted
    refine ascending.filterMap _ ?_
    intro label other lt overwrite eq further further_eq
    obtain ⟨rfl, -, -⟩ := Overwrite.of?_eq_some_iff.1 eq
    obtain ⟨rfl, -, -⟩ := Overwrite.of?_eq_some_iff.1 further_eq
    exact lt
  · intro overwrite
    rw [List.mem_filterMap]
    constructor
    · rintro ⟨label, mem, eq⟩
      obtain ⟨rfl, previous, ne⟩ := Overwrite.of?_eq_some_iff.1 eq
      exact ⟨previous, given.sorted.find?_of_mem mem, ne⟩
    · rintro ⟨previous, value, ne⟩
      exact ⟨_, Entries.mem_of_find? value, Overwrite.of?_eq_some_iff.2 ⟨rfl, previous, ne⟩⟩

def setOne (done : SortedMap String × List String) (label : String × String) :
    SortedMap String × List String :=
  (done.1.insert label.1 label.2, done.2 ++ ((Overwrite.of? done.1 label).map Overwrite.text).toList)

theorem Overwrite.of?_insert {current : SortedMap String} {key value : String}
    {label : String × String} (ne : label.1 ≠ key) :
    of? (current.insert key value) label = of? current label := by
  rw [of?, of?, SortedMap.find?_insert, if_neg ne]

theorem foldl_setOne_entries {entries : Entries String} (sorted : entries.Sorted)
    (current : SortedMap String) (said : List String) :
    entries.foldl setOne (current, said) =
      (entries.foldl (fun map entry => map.insert entry.1 entry.2) current,
        said ++ (entries.filterMap (Overwrite.of? current)).map Overwrite.text) := by
  induction entries generalizing current said with
  | nil => simp
  | cons label rest ih =>
    obtain ⟨key, value⟩ := label
    -- the labels that are left have other keys, so that they still find what was there at first
    have unchanged : rest.filterMap (Overwrite.of? (current.insert key value)) =
        rest.filterMap (Overwrite.of? current) := by
      refine List.filterMap_congr fun label mem => Overwrite.of?_insert ?_
      intro eq
      exact sorted.not_mem (eq ▸ Entries.mem_keys_of_mem mem)
    rw [List.foldl_cons, setOne, ih sorted.tail, unchanged, List.foldl_cons, List.filterMap_cons,
      List.append_assoc]
    cases Overwrite.of? current (key, value) <;> rfl

/-- Setting labels one after the other comes to setting them all at once. -/
theorem foldl_setOne (current given : SortedMap String) :
    given.entries.foldl setOne (current, []) = (current.overlay given, warnings current given) := by
  rw [foldl_setOne_entries given.sorted, warnings_eq, List.nil_append, SortedMap.overlay]

structure SetOn (given : SortedMap String) (object left : Object) (said : List String) : Prop where
  /-- Nothing but the labels was changed, and there are labels now. -/
  edited : left = object.setLabels (left.labels.getD ∅)
  labels : ∀ key, (left.labels.getD ∅).find? key =
    (given.find? key).or ((object.labels.getD ∅).find? key)
  name : left.name = object.name
  objectNamespace : left.objectNamespace = object.objectNamespace
  annotations : left.annotations = object.annotations
  told : Tells (object.labels.getD ∅) given said
  oneByOne : given.entries.foldl setOne (object.labels.getD ∅, []) = (left.labels.getD ∅, said)

theorem labels_setLabels (object : Object) (map : SortedMap String) :
    (object.setLabels map).labels = some map := by
  cases object <;> rfl

theorem setOn_label (given : SortedMap String) (object : Object) :
    SetOn given object (label given object) (warnings (object.labels.getD ∅) given) := by
  have labels : (label given object).labels = some ((object.labels.getD ∅).overlay given) :=
    labels_setLabels object _
  constructor
  case edited => rw [labels]; rfl
  case labels =>
    intro key
    rw [labels, Option.getD_some, SortedMap.find?_overlay]
  case name => cases object <;> rfl
  case objectNamespace => cases object <;> rfl
  case annotations => cases object <;> rfl
  case told => exact tells_warnings _ given
  case oneByOne => rw [labels, Option.getD_some, foldl_setOne]

/-- Labels were set one map after the other, each on what the one before it left. -/
inductive SetInTurn : List (SortedMap String) → Object → Object → List String → Prop where
  | nil (object : Object) : SetInTurn [] object object []
  | cons {given : SortedMap String} {more : List (SortedMap String)} {object next left : Object}
    {said told : List String} (first : SetOn given object next said)
    (rest : SetInTurn more next left told) : SetInTurn (given :: more) object left (said ++ told)

theorem SetInTurn.labels_eq {maps : List (SortedMap String)} {object left : Object}
    {said : List String} (set : SetInTurn maps object left said) :
    left.labels.getD ∅ = maps.foldl SortedMap.overlay (object.labels.getD ∅) := by
  induction set with
  | nil object => rfl
  | cons first rest ih =>
    rw [ih, List.foldl_cons]
    congr 1
    refine SortedMap.ext_find? fun key => ?_
    rw [first.labels, SortedMap.find?_overlay]

section

variable {logger : Logger} {context : Context} {review : Review} {state : State σ}

theorem run_mutator (given : SortedMap String) (object : Object) :
    (mutator given).run context review object state =
      ⟨.done { warnings := warnings (object.labels.getD ∅) given }, label given object, state⟩ :=
  rfl

theorem runSteps_mutators (notDone : context.isDone state.world = false)
    (maps : List (SortedMap String)) (object : Object) (before : List String) :
    ∃ left said, Mutator.runSteps logger (maps.map mutator) context review object
        { warnings := before } state = ⟨.done { warnings := before ++ said }, left, state⟩ ∧
      SetInTurn maps object left said := by
  induction maps generalizing object before with
  | nil =>
    refine ⟨object, [], ?_, .nil object⟩
    rw [List.map_nil, Mutator.runSteps, List.append_nil]
  | cons given more ih =>
    let said := warnings (object.labels.getD ∅) given
    obtain ⟨left, told, ran, rest⟩ := ih (label given object) (before ++ said)
    refine ⟨left, said ++ told, ?_, .cons (setOn_label given object) rest⟩
    rw [List.map_cons, Mutator.runSteps_of_done notDone (run_mutator given object) rfl rfl,
      ← List.append_assoc]
    exact ran

/-- A mutator that sets labels succeeds on every object, in place and without asking to stop. In a
chain of such mutators each does so on what the one before it left, unless the request was over
from the start, and then nothing is done. -/
theorem mutators_set (context : Context) (review : Review) (object : Object) (state : State σ) :
    (∀ given, ∃ left said, (mutator given).run context review object state =
        ⟨.done { warnings := said, replacement := none, stop := false }, left, state⟩ ∧
      SetOn given object left said) ∧
    ∀ (logger : Logger) (maps : List (SortedMap String)),
      (context.isDone state.world = false → ∃ left said,
        (Mutator.chain logger (maps.map mutator)).run context review object state =
          ⟨.done { warnings := said, replacement := none, stop := false }, left, state⟩ ∧
        SetInTurn maps object left said ∧
        left.labels.getD ∅ = maps.foldl SortedMap.overlay (object.labels.getD ∅)) ∧
      (context.isDone state.world = true → maps ≠ [] →
        (Mutator.chain logger (maps.map mutator)).run context review object state =
          ⟨.failed (.cancelled .mutating), object, state⟩) := by
  refine ⟨fun given => ⟨_, _, run_mutator given object, setOn_label given object⟩, ?_⟩
  intro logger maps
  constructor
  · intro notDone
    obtain ⟨left, said, ran, set⟩ := runSteps_mutators notDone maps object []
    exact ⟨left, said, ran, set, set.labels_eq⟩
  · intro isDone nonempty
    cases maps with
    | nil => exact absurd rfl nonempty
    | cons given more => rw [Mutator.run, List.map_cons, Mutator.runSteps_of_isDone isDone]

end

def deployed : Object :=
  .generic
    { data := .object ∅
      labels := some ((∅ : SortedMap String).insert "env" "dev")
      annotations := none }

/-- Of two mutators the second overwrites what the first one set. -/
theorem mutators_set_deployed : ∃ left,
    let maps := [((∅ : SortedMap String).insert "team" "x").insert "env" "prod",
      (∅ : SortedMap String).insert "team" "y"]
    let said := ["label env changed from \x27dev\x27 to \x27prod\x27",
      "label team changed from \x27x\x27 to \x27y\x27"]
    Reviewer.unhurried.isDone Reviewer.outset.world = false ∧
    (Mutator.chain .silent (maps.map mutator)).run Reviewer.unhurried default deployed
      Reviewer.outset = ⟨.done { warnings := said }, left, Reviewer.outset⟩ ∧
    SetInTurn maps deployed left said ∧
    left.labels.getD ∅ = ((∅ : SortedMap String).insert "team" "y").insert "env" "prod" := by
  have notDone : Reviewer.unhurried.isDone Reviewer.outset.world = false := rfl
  obtain ⟨-, chained⟩ := mutators_set Reviewer.unhurried default deployed Reviewer.outset
  obtain ⟨left, said, ran, set, labels⟩ := (chained .silent
    [((∅ : SortedMap String).insert "team" "x").insert "env" "prod",
      (∅ : SortedMap String).insert "team" "y"]).1 notDone
  obtain rfl : said = ["label env changed from \x27dev\x27 to \x27prod\x27",
      "label team changed from \x27x\x27 to \x27y\x27"] := by
    cases ran
    rfl
  exact ⟨left, notDone, ran, set, labels.trans (by decide)⟩

end Admission.Labels
