import Mathlib.Data.List.Basic

/-! Leaves in nested chains, visited from left to right until one of them ends the visits or the
request is over. Before every step, of whatever chain, it is seen whether the request is over, so
that a visit behind which it is over is the last one. -/

set_option autoImplicit false

namespace Admission

inductive Nest (L : Type) where
  | leaf (call : L)
  | chain (steps : List (Nest L))

structure Seat (L : Type) where
  leaf : L
  /-- Some chain around the leaf has a step behind the one that the leaf is in. -/
  followed : Bool

namespace Nest

variable {L : Type}

mutual

/-- The leaves from left to right, of a nest that is itself `followed` by a step or not. -/
def seats (followed : Bool) : Nest L → List (Seat L)
  | .leaf call => [⟨call, followed⟩]
  | .chain steps => seatsOf followed steps

def seatsOf (followed : Bool) : List (Nest L) → List (Seat L)
  | [] => []
  | step :: steps => seats (followed || !steps.isEmpty) step ++ seatsOf followed steps

end

mutual

/-- The leaves from left to right, and a gap for every chain without steps. -/
def slots : Nest L → List (Option L)
  | .leaf call => [some call]
  | .chain steps => if steps.isEmpty then [none] else slotsOf steps

def slotsOf : List (Nest L) → List (Option L)
  | [] => []
  | step :: steps => slots step ++ slotsOf steps

end

mutual

def map {M : Type} (f : L → M) : Nest L → Nest M
  | .leaf call => .leaf (f call)
  | .chain steps => .chain (mapOf f steps)

def mapOf {M : Type} (f : L → M) : List (Nest L) → List (Nest M)
  | [] => []
  | step :: steps => map f step :: mapOf f steps

end

mutual

theorem slots_map {M : Type} (f : L → M) (nest : Nest L) :
    (nest.map f).slots = nest.slots.map (Option.map f) := by
  cases nest with
  | leaf call => rfl
  | chain steps =>
    have same : (mapOf f steps).isEmpty = steps.isEmpty := by cases steps <;> rfl
    rw [map, slots, slots, same, slotsOf_map]
    split <;> rfl

theorem slotsOf_map {M : Type} (f : L → M) (steps : List (Nest L)) :
    slotsOf (mapOf f steps) = (slotsOf steps).map (Option.map f) := by
  cases steps with
  | nil => rfl
  | cons step steps => rw [mapOf, slotsOf, slotsOf, slots_map, slotsOf_map, List.map_append]

end

inductive All (P : L → Prop) : Nest L → Prop where
  | leaf {call : L} (holds : P call) : All P (.leaf call)
  | chain {steps : List (Nest L)} (all : ∀ step ∈ steps, All P step) : All P (.chain steps)

theorem All.of_mem {P : L → Prop} {steps : List (Nest L)} (all : All P (.chain steps)) :
    ∀ step ∈ steps, All P step := by
  cases all with
  | chain all => exact all

theorem All.imp {P Q : L → Prop} {nest : Nest L} (all : nest.All P) (imp : ∀ call, P call → Q call) :
    nest.All Q := by
  induction all with
  | leaf holds => exact .leaf (imp _ holds)
  | chain all ih => exact .chain ih

theorem mapOf_eq {M : Type} (f : L → M) (steps : List (Nest L)) :
    mapOf f steps = steps.map (map f) := by
  induction steps with
  | nil => rfl
  | cons step steps ih => rw [mapOf, ih, List.map_cons]

theorem All.map {M : Type} {P : L → Prop} {Q : M → Prop} {f : L → M} {nest : Nest L}
    (all : nest.All P) (holds : ∀ call, P call → Q (f call)) : (nest.map f).All Q := by
  induction all with
  | leaf here => exact .leaf (holds _ here)
  | chain all ih =>
    rw [Nest.map, mapOf_eq]
    refine .chain fun mapped mem => ?_
    obtain ⟨step, inSteps, rfl⟩ := List.mem_map.1 mem
    exact ih step inSteps

def seatsIn (followed : Bool) : List (Option L) → List (Seat L)
  | [] => []
  | none :: slots => seatsIn followed slots
  | some call :: slots => ⟨call, followed || !slots.isEmpty⟩ :: seatsIn followed slots

theorem seatsIn_append (followed : Bool) (slots more : List (Option L)) :
    seatsIn followed (slots ++ more) =
      seatsIn (followed || !more.isEmpty) slots ++ seatsIn followed more := by
  induction slots with
  | nil => rfl
  | cons slot slots ih =>
    cases slot with
    | none => exact ih
    | some call =>
      have behind : (slots ++ more).isEmpty = (slots.isEmpty && more.isEmpty) := by
        cases slots <;> rfl
      rw [List.cons_append, seatsIn, seatsIn, ih, behind, List.cons_append]
      cases followed <;> cases slots.isEmpty <;> cases more.isEmpty <;> rfl

mutual

theorem slots_ne_nil (nest : Nest L) : nest.slots ≠ [] := by
  cases nest with
  | leaf call => exact List.cons_ne_nil _ _
  | chain steps =>
    rw [slots]
    split
    · exact List.cons_ne_nil _ _
    · rename_i nonempty
      rwa [ne_eq, ← List.isEmpty_iff, isEmpty_slotsOf]

theorem isEmpty_slotsOf (steps : List (Nest L)) : (slotsOf steps).isEmpty = steps.isEmpty := by
  cases steps with
  | nil => rfl
  | cons step steps => simp [slotsOf, slots_ne_nil step]

end

mutual

theorem seatsIn_slots (followed : Bool) (nest : Nest L) :
    seatsIn followed nest.slots = nest.seats followed := by
  cases nest with
  | leaf call => simp [slots, seats, seatsIn]
  | chain steps =>
    rw [slots, seats, ← seatsIn_slotsOf]
    split
    · rename_i empty
      rw [List.isEmpty_iff.1 empty]
      rfl
    · rfl

theorem seatsIn_slotsOf (followed : Bool) (steps : List (Nest L)) :
    seatsIn followed (slotsOf steps) = seatsOf followed steps := by
  cases steps with
  | nil => rfl
  | cons step steps =>
    rw [slotsOf, seatsIn_append, isEmpty_slotsOf, seatsIn_slots, seatsIn_slotsOf, seatsOf]

end

end Nest

/-! ## Visits -/

/-- How leaves are visited: each is handed a state and leaves another one behind. -/
structure Line (L S : Type) where
  /-- The request is over. -/
  isDone : S → Bool
  /-- The leaf fails, or it asks that none be visited after it. -/
  ends : L → S → Bool
  next : L → S → S

inductive Finish where
  /-- Nothing is left. -/
  | through
  | ended
  /-- The request was over with something left. -/
  | cut
  deriving DecidableEq

/-- How visits come to an end behind which the request is over: as the last leaf has it, or else at
the next step of a chain if there is one. -/
def Finish.interrupted (ends followed : Bool) : Finish :=
  if ends then .ended else if followed then .cut else .through

structure Tour (L S : Type) where
  visits : List (L × S)
  finish : Finish
  final : S

def Tour.behind {L S : Type} (tour : Tour L S) (visit : L × S) : Tour L S :=
  { tour with visits := visit :: tour.visits }

namespace Line

variable {L S : Type} (line : Line L S)

def tour : List (Option L) → S → Tour L S
  | [], state => ⟨[], .through, state⟩
  | none :: slots, state => if line.isDone state then ⟨[], .cut, state⟩ else tour slots state
  | some leaf :: slots, state =>
    if line.isDone state then ⟨[], .cut, state⟩
    else if line.ends leaf state then ⟨[(leaf, state)], .ended, line.next leaf state⟩
    else (tour slots (line.next leaf state)).behind (leaf, state)

theorem tour_of_isDone (slots : List (Option L)) {state : S} (ended : line.isDone state = true) :
    line.tour slots state = ⟨[], if slots.isEmpty then .through else .cut, state⟩ := by
  cases slots with
  | nil => rfl
  | cons slot slots => cases slot <;> rw [tour, if_pos ended] <;> rfl

section

variable {line} {leaf : L} {slots : List (Option L)} {state : S}

theorem tour_gap (notDone : line.isDone state = false) :
    line.tour (none :: slots) state = line.tour slots state := by
  simp [tour, notDone]

theorem tour_of_ends (notDone : line.isDone state = false) (ends : line.ends leaf state = true) :
    line.tour (some leaf :: slots) state = ⟨[(leaf, state)], .ended, line.next leaf state⟩ := by
  simp [tour, notDone, ends]

theorem tour_of_goesOn (notDone : line.isDone state = false)
    (goesOn : line.ends leaf state = false) : line.tour (some leaf :: slots) state =
      (line.tour slots (line.next leaf state)).behind (leaf, state) := by
  simp [tour, notDone, goesOn]

end

theorem not_isDone_of_mem {slots : List (Option L)} {state : S} {visit : L × S}
    (mem : visit ∈ (line.tour slots state).visits) : line.isDone visit.2 = false := by
  fun_induction line.tour slots state with
  | case1 => cases mem
  | case2 => cases mem
  | case3 slots state notDone ih => exact ih mem
  | case4 => cases mem
  | case5 leaf slots state notDone ends =>
    obtain rfl := List.mem_singleton.1 mem
    simpa using notDone
  | case6 leaf slots state notDone goesOn ih =>
    rcases List.mem_cons.1 mem with rfl | mem
    · simpa using notDone
    · exact ih mem

theorem visits_isPrefix (slots : List (Option L)) (state : S) (followed : Bool) :
    (line.tour slots state).visits.map Prod.fst <+: (Nest.seatsIn followed slots).map Seat.leaf := by
  fun_induction line.tour slots state with
  | case1 => exact List.nil_prefix
  | case2 => exact List.nil_prefix
  | case3 slots state notDone ih => exact ih
  | case4 => exact List.nil_prefix
  | case5 leaf slots state notDone ends => exact (List.prefix_cons_inj leaf).2 List.nil_prefix
  | case6 leaf slots state notDone goesOn ih => exact (List.prefix_cons_inj leaf).2 ih

/-- A visit behind which the request is over is the last one. -/
theorem interrupted {slots : List (Option L)} {state left : S} {before after : List (L × S)}
    {leaf : L} (visited : (line.tour slots state).visits = before ++ (leaf, left) :: after)
    (ended : line.isDone (line.next leaf left) = true) :
    after = [] ∧ (line.tour slots state).final = line.next leaf left ∧ ∃ followed,
      (Nest.seatsIn false slots)[before.length]? = some ⟨leaf, followed⟩ ∧
      (line.tour slots state).finish = .interrupted (line.ends leaf left) followed := by
  fun_induction line.tour slots state generalizing before with
  | case1 => simp at visited
  | case2 => simp at visited
  | case3 slots state notDone ih => exact ih visited
  | case4 => simp at visited
  | case5 first slots state notDone ends =>
    -- there was but one visit
    obtain ⟨rfl, single⟩ | ⟨-, none⟩ := List.singleton_eq_append_iff.1 visited
    · cases single
      exact ⟨rfl, rfl, !slots.isEmpty, rfl, by rw [ends]; rfl⟩
    · cases none
  | case6 first slots state notDone goesOn ih =>
    cases before with
    | nil =>
      -- the visit in question is the first one
      simp only [Tour.behind, List.nil_append, List.cons.injEq, Prod.mk.injEq] at visited
      obtain ⟨⟨rfl, rfl⟩, rest_eq⟩ := visited
      rw [line.tour_of_isDone slots ended] at rest_eq ⊢
      refine ⟨rest_eq.symm, rfl, !slots.isEmpty, rfl, ?_⟩
      rw [Tour.behind, Bool.eq_false_iff.2 goesOn]
      cases slots.isEmpty <;> rfl
    | cons visit before =>
      simp only [Tour.behind, List.cons_append, List.cons.injEq] at visited
      exact ih visited.2

end Line

end Admission
