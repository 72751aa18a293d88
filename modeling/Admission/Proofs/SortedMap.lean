import Mathlib.Data.List.Forall2
import Admission.SortedMap

/-! Entries in key order are determined by what is found under each key. -/

set_option autoImplicit false

namespace Admission

namespace Entries

variable {α β : Type}

@[simp]
theorem keys_cons (key : String) (value : α) (rest : Entries α) :
    keys ((key, value) :: rest) = key :: keys rest :=
  rfl

theorem mem_of_find? {entries : Entries α} {key : String} {value : α}
    (found : find? entries key = some value) : (key, value) ∈ entries := by
  fun_induction find? entries key with
  | case1 => cases found
  | case2 v rest => simp_all
  | case3 k v rest ne ih => exact List.mem_cons_of_mem _ (ih found)

theorem find?_isSome_iff {entries : Entries α} {key : String} :
    (find? entries key).isSome = true ↔ key ∈ keys entries := by
  fun_induction find? entries key with
  | case1 => simp [keys]
  | case2 v rest => simp [keys]
  | case3 k v rest ne ih => simp [keys, ih, Ne.symm ne]

theorem contains_iff {entries : Entries α} {key : String} :
    contains entries key = true ↔ key ∈ keys entries :=
  find?_isSome_iff

theorem mem_keys_of_mem {entries : Entries α} {entry : String × α} (mem : entry ∈ entries) :
    entry.1 ∈ keys entries :=
  List.mem_map_of_mem mem

theorem Sorted.not_mem {key : String} {value : α} {rest : Entries α}
    (sorted : Sorted ((key, value) :: rest)) : key ∉ keys rest :=
  fun mem => String.lt_irrefl key ((sorted_cons.1 sorted).1 key mem)

theorem Sorted.tail {key : String} {value : α} {rest : Entries α}
    (sorted : Sorted ((key, value) :: rest)) : Sorted rest :=
  (sorted_cons.1 sorted).2

theorem Sorted.nodup {entries : Entries α} (sorted : entries.Sorted) :
    entries.keys.Nodup := by
  refine List.Pairwise.imp ?_ sorted
  intro key other lt eq
  exact String.lt_irrefl other (eq ▸ lt)

theorem find?_of_mem {entries : Entries α} (nodup : (keys entries).Nodup) {key : String} {value : α}
    (mem : (key, value) ∈ entries) : find? entries key = some value := by
  fun_induction find? entries key with
  | case1 => cases mem
  | case2 v rest =>
    rcases List.mem_cons.1 mem with eq | mem
    · simp_all
    · exact absurd (mem_keys_of_mem mem) (List.nodup_cons.1 nodup).1
  | case3 k v rest ne ih =>
    rcases List.mem_cons.1 mem with eq | mem
    · simp_all
    · exact ih (List.nodup_cons.1 nodup).2 mem

theorem Sorted.find?_of_mem {entries : Entries α} (sorted : Sorted entries) {key : String}
    {value : α} (mem : (key, value) ∈ entries) : find? entries key = some value :=
  Entries.find?_of_mem sorted.nodup mem

theorem insert_insert (entries : Entries α) (key : String) (first second : α) :
    insert (insert entries key first) key second = insert entries key second := by
  fun_induction insert entries key first with
  | case1 => simp [insert]
  | case2 k v rest lt => simp [insert, lt]
  | case3 v rest not_lt => simp [insert]
  | case4 k v rest not_lt ne ih => simp [insert, not_lt, ne, ih]

theorem Sorted.insert_of_find? {entries : Entries α} (sorted : Sorted entries) {key : String}
    {value : α} (found : find? entries key = some value) :
    Entries.insert entries key value = entries := by
  fun_induction find? entries key with
  | case1 => cases found
  | case2 v rest => simp_all [Entries.insert]
  | case3 k v rest ne ih =>
    have mem : key ∈ keys rest := find?_isSome_iff.1 (by simp [found])
    have lt : k < key := (sorted_cons.1 sorted).1 key mem
    have not_lt : ¬ key < k := fun gt => String.lt_irrefl k (String.lt_trans lt gt)
    simp [Entries.insert, not_lt, Ne.symm ne, ih sorted.tail found]

theorem insertIfAbsent_of_lt {entries : Entries α} {key : String} (value : α)
    (lt : ∀ k ∈ keys entries, key < k) :
    insertIfAbsent entries key value = (key, value) :: entries := by
  cases entries with
  | nil => rfl
  | cons entry entries => simp [insertIfAbsent, lt entry.1 (by simp [keys])]

theorem Sorted.sort_eq {entries : Entries α} (sorted : Sorted entries) : sort entries = entries := by
  induction entries with
  | nil => rfl
  | cons entry entries ih =>
    have rest := ih sorted.tail
    rw [sort] at rest
    rw [sort, List.foldr_cons, rest, insertIfAbsent_of_lt _ (sorted_cons.1 sorted).1]

theorem find?_append (first second : Entries α) (key : String) :
    find? (first ++ second) key = (find? first key).or (find? second key) := by
  induction first with
  | nil => rfl
  | cons entry first ih =>
    rw [List.cons_append, find?, find?]
    split
    · rfl
    · exact ih

theorem find?_insertIfAbsent {entries : Entries α} (sorted : Sorted entries) (key k : String)
    (value : α) : find? (insertIfAbsent entries key value) k =
      (find? entries k).or (if k = key then some value else none) := by
  fun_induction insertIfAbsent entries key value with
  | case1 => simp [find?, eq_comm]
  | case2 l v rest lt =>
    -- the key is less than all that follow
    have absent : find? ((l, v) :: rest) key = none := by
      refine find?_eq_none_of_not_mem fun mem => ?_
      rcases List.mem_cons.1 mem with rfl | mem
      · exact String.lt_irrefl _ lt
      · exact String.lt_irrefl _ (String.lt_trans lt ((sorted_cons.1 sorted).1 _ mem))
    rw [find?]
    split
    · rename_i eq
      rw [← eq, absent]
      simp
    · rename_i ne
      simp [Ne.symm ne]
  | case3 v rest not_lt =>
    by_cases eq : k = key
    · simp [find?, eq]
    · simp [eq]
  | case4 l v rest not_lt ne ih =>
    rw [find?, find?, ih (sorted_cons.1 sorted).2]
    split <;> rfl

theorem find?_sort (entries : Entries α) (key : String) :
    find? (sort entries) key = find? entries.reverse key := by
  induction entries with
  | nil => rfl
  | cons entry entries ih =>
    rw [sort, List.foldr_cons, ← sort, find?_insertIfAbsent (sorted_sort entries), ih,
      List.reverse_cons, find?_append]
    simp [find?, eq_comm]

theorem find?_reverse {entries : Entries α} (nodup : (keys entries).Nodup) (key : String) :
    find? entries.reverse key = find? entries key := by
  induction entries with
  | nil => rfl
  | cons entry entries ih =>
    obtain ⟨k, value⟩ := entry
    rw [keys_cons, List.nodup_cons] at nodup
    rw [List.reverse_cons, find?_append, ih nodup.2]
    by_cases eq : k = key
    · subst eq
      simp [find?, find?_eq_none_of_not_mem nodup.1]
    · simp [find?, eq]

theorem find?_mapValues {β : Type} (f : α → β) (entries : Entries α) (key : String) :
    find? (mapValues f entries) key = (find? entries key).map f := by
  induction entries with
  | nil => rfl
  | cons entry entries ih =>
    rw [mapValues, List.map_cons, ← mapValues, find?, find?, ih]
    split <;> rfl

/-- The first keys of two lists are one key if each of them stands in both lists. -/
theorem head_eq {k l : String} {x : α} {y : β} {xs : Entries α} {ys : Entries β}
    (left : Sorted ((k, x) :: xs)) (right : Sorted ((l, y) :: ys))
    (keys_iff : ∀ key, key ∈ keys ((k, x) :: xs) ↔ key ∈ keys ((l, y) :: ys)) : k = l := by
  have inRight : k = l ∨ k ∈ keys ys := List.mem_cons.1 ((keys_iff k).1 (by simp [keys]))
  have inLeft : l = k ∨ l ∈ keys xs := List.mem_cons.1 ((keys_iff l).2 (by simp [keys]))
  rcases inRight with eq | mem
  · exact eq
  · rcases inLeft with eq | other
    · exact eq.symm
    · have lt := (sorted_cons.1 right).1 k mem
      have gt := (sorted_cons.1 left).1 l other
      exact absurd (String.lt_trans lt gt) (String.lt_irrefl l)

theorem mem_keys_iff_of_rel {R : α → β → Prop} {xs : Entries α} {ys : Entries β}
    (rel : ∀ key, Option.Rel R (find? xs key) (find? ys key)) (key : String) :
    key ∈ keys xs ↔ key ∈ keys ys := by
  have related := rel key
  rw [← find?_isSome_iff, ← find?_isSome_iff]
  revert related
  cases find? xs key <;> cases find? ys key <;> rintro ⟨⟩ <;> simp

/-- Two lists in key order whose values are related under every key are related one by one. -/
theorem forall₂_of_find? {R : α → β → Prop} {xs : Entries α} {ys : Entries β}
    (left : Sorted xs) (right : Sorted ys)
    (rel : ∀ key, Option.Rel R (find? xs key) (find? ys key)) :
    List.Forall₂ (fun entry other => entry.1 = other.1 ∧ R entry.2 other.2) xs ys := by
  induction xs generalizing ys with
  | nil =>
    cases ys with
    | nil => exact .nil
    | cons entry ys =>
      exact absurd ((mem_keys_iff_of_rel rel entry.1).2 (by simp [keys])) (by simp [keys])
  | cons entry xs ih =>
    obtain ⟨k, x⟩ := entry
    cases ys with
    | nil => exact absurd ((mem_keys_iff_of_rel rel k).1 (by simp [keys])) (by simp [keys])
    | cons other ys =>
      obtain ⟨l, y⟩ := other
      obtain rfl := head_eq left right (mem_keys_iff_of_rel rel)
      have head : R x y := by
        have related := rel k
        simp only [find?, if_true] at related
        cases related; assumption
      -- the first key is found in neither of the rests
      refine .cons ⟨rfl, head⟩ (ih left.tail right.tail fun key => ?_)
      by_cases eq : k = key
      · subst eq
        rw [find?_eq_none_of_not_mem left.not_mem, find?_eq_none_of_not_mem right.not_mem]
        exact .none
      · simpa [find?, eq] using rel key

theorem find?_rel_of_forall₂ {R : α → β → Prop} {xs : Entries α} {ys : Entries β}
    (pairs : List.Forall₂ (fun entry other => entry.1 = other.1 ∧ R entry.2 other.2) xs ys)
    (key : String) : Option.Rel R (find? xs key) (find? ys key) := by
  induction pairs with
  | nil => exact .none
  | @cons entry other xs ys pair pairs ih =>
    rw [find?, find?, ← pair.1]
    split
    · exact .some pair.2
    · exact ih

theorem keys_eq_of_forall₂ {R : α → β → Prop} {xs : Entries α} {ys : Entries β}
    (pairs : List.Forall₂ (fun entry other => entry.1 = other.1 ∧ R entry.2 other.2) xs ys) :
    keys xs = keys ys := by
  induction pairs with
  | nil => rfl
  | cons pair pairs ih => exact congr (congrArg List.cons pair.1) ih

theorem lookup_eq_find? (entries : Entries α) (key : String) :
    List.lookup key entries = find? entries key := by
  induction entries with
  | nil => rfl
  | cons entry entries ih =>
    obtain ⟨k, value⟩ := entry
    rw [find?, List.lookup_cons, ih]
    by_cases eq : k = key
    · simp [eq]
    · simp [eq, beq_false_of_ne (Ne.symm eq)]

end Entries

namespace SortedMap

variable {α β : Type}

theorem find?_ofList {entries : Entries α} (nodup : entries.keys.Nodup)
    (key : String) : (ofList entries).find? key = Entries.find? entries key := by
  rw [find?, ofList, Entries.find?_sort, Entries.find?_reverse nodup]

theorem find?_mapValues (f : α → β) (map : SortedMap α) (key : String) :
    (map.mapValues f).find? key = (map.find? key).map f :=
  Entries.find?_mapValues f map.entries key

theorem ext_find? {first second : SortedMap α}
    (same : ∀ key, first.find? key = second.find? key) : first = second := by
  have pairs := Entries.forall₂_of_find? first.sorted second.sorted fun key => by
    show Option.Rel Eq (first.find? key) (second.find? key)
    rw [same key]
    cases second.find? key with
    | none => exact .none
    | some value => exact .some rfl
  have entries : first.entries = second.entries :=
    List.forall₂_eq_eq_eq ▸ pairs.imp fun entry other eq => Prod.ext eq.1 eq.2
  cases first
  cases second
  cases entries
  rfl

theorem find?_overlay (lower upper : SortedMap α) (key : String) :
    (lower.overlay upper).find? key = (upper.find? key).or (lower.find? key) := by
  obtain ⟨entries, sorted⟩ := upper
  show (entries.foldl (fun map entry => map.insert entry.1 entry.2) lower).find? key =
    (Entries.find? entries key).or (lower.find? key)
  induction entries generalizing lower with
  | nil => rfl
  | cons entry entries ih =>
    obtain ⟨name, value⟩ := entry
    rw [List.foldl_cons, ih _ sorted.tail, find?_insert, Entries.find?]
    by_cases eq : name = key
    · -- no later entry overrides this one
      subst eq
      rw [Entries.find?_eq_none_of_not_mem sorted.not_mem, if_pos rfl, if_pos rfl]
      rfl
    · rw [if_neg eq, if_neg (Ne.symm eq)]

theorem insert_eq_self {map : SortedMap α} {key : String} {value : α}
    (found : map.find? key = some value) : map.insert key value = map := by
  obtain ⟨entries, sorted⟩ := map
  simp only [insert, sorted.insert_of_find? found]

theorem exists_find? {entries : Entries β} (sorted : entries.Sorted)
    (values : String → Option α)
    (beside : ∀ key, (values key).isSome = (Entries.find? entries key).isSome) :
    ∃ map : SortedMap α, ∀ key, map.find? key = values key := by
  suffices found : ∃ written : Entries α, written.keys = entries.keys ∧
      ∀ key ∈ entries.keys, written.find? key = values key by
    obtain ⟨written, keys, finds⟩ := found
    refine ⟨⟨written, by rw [Entries.Sorted, keys]; exact sorted⟩, fun key => ?_⟩
    by_cases mem : key ∈ entries.keys
    · exact finds key mem
    · have absent := beside key
      rw [Entries.find?_eq_none_of_not_mem mem, Option.isSome_none, Option.isSome_eq_false_iff,
        Option.isNone_iff_eq_none] at absent
      rw [absent]
      exact Entries.find?_eq_none_of_not_mem (keys.symm ▸ mem)
  have each : ∀ key ∈ entries.keys, (values key).isSome = true := fun key mem =>
    (beside key).trans (Entries.find?_isSome_iff.2 mem)
  clear beside
  induction entries with
  | nil => exact ⟨[], rfl, fun key mem => by cases mem⟩
  | cons entry entries ih =>
    rw [Entries.keys_cons, List.forall_mem_cons] at each
    obtain ⟨value, held⟩ := Option.isSome_iff_exists.1 each.1
    obtain ⟨written, keys, finds⟩ := ih sorted.tail each.2
    refine ⟨(entry.1, value) :: written, by rw [Entries.keys_cons, Entries.keys_cons, keys], ?_⟩
    rw [Entries.keys_cons, List.forall_mem_cons]
    refine ⟨(if_pos rfl).trans held.symm, fun key mem => ?_⟩
    have ne : entry.1 ≠ key := fun eq => sorted.not_mem (eq ▸ mem)
    exact (if_neg ne).trans (finds key mem)

end SortedMap

end Admission
