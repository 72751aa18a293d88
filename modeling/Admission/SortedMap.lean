/-! Finite maps from text, kept as entries in increasing key order. Text is ordered by its
characters, which for UTF-8 is also the order of its bytes. -/

set_option autoImplicit false

namespace Admission

abbrev Entries (α : Type) := List (String × α)

namespace Entries

variable {α β : Type}

def keys (entries : Entries α) : List String :=
  entries.map Prod.fst

/-- No key stands twice. -/
def Sorted (entries : Entries α) : Prop :=
  (keys entries).Pairwise (· < ·)

def find? (entries : Entries α) (key : String) : Option α :=
  match entries with
  | [] => none
  | (k, value) :: rest => if k = key then some value else find? rest key

def contains (entries : Entries α) (key : String) : Bool :=
  (find? entries key).isSome

/-- The entry goes to its place; an entry of the same key is replaced. -/
def insert (entries : Entries α) (key : String) (value : α) : Entries α :=
  match entries with
  | [] => [(key, value)]
  | (k, v) :: rest =>
    if key < k then (key, value) :: (k, v) :: rest
    else if key = k then (key, value) :: rest
    else (k, v) :: insert rest key value

def insertIfAbsent (entries : Entries α) (key : String) (value : α) : Entries α :=
  match entries with
  | [] => [(key, value)]
  | (k, v) :: rest =>
    if key < k then (key, value) :: (k, v) :: rest
    else if key = k then (k, v) :: rest
    else (k, v) :: insertIfAbsent rest key value

def erase (entries : Entries α) (key : String) : Entries α :=
  match entries with
  | [] => []
  | (k, v) :: rest => if k = key then rest else (k, v) :: erase rest key

/-- The entries in their order. Of those with one key the last wins. -/
def sort (entries : Entries α) : Entries α :=
  entries.foldr (fun entry sorted => insertIfAbsent sorted entry.1 entry.2) []

def mapValues (f : α → β) (entries : Entries α) : Entries β :=
  entries.map fun entry => (entry.1, f entry.2)

def mapValues? (f : α → Option β) : Entries α → Option (Entries β)
  | [] => some []
  | (key, value) :: rest =>
    match f value, mapValues? f rest with
    | some value, some rest => some ((key, value) :: rest)
    | _, _ => none

theorem lt_of_not_lt {a b : String} (not_lt : ¬ a < b) (ne : a ≠ b) : b < a := by
  rcases String.le_total a b with le | le
  · exact absurd (String.le_antisymm le (String.not_lt.1 not_lt)) ne
  · exact String.not_le.1 fun ge => ne (String.le_antisymm ge le)

theorem sorted_cons {key : String} {value : α} {rest : Entries α} :
    Sorted ((key, value) :: rest) ↔ (∀ k ∈ keys rest, key < k) ∧ Sorted rest := by
  simp [Sorted, keys]

theorem mem_keys_insert {entries : Entries α} {key k : String} {value : α}
    (mem : k ∈ keys (insert entries key value)) : k = key ∨ k ∈ keys entries := by
  fun_induction insert entries key value <;> grind [keys]

theorem Sorted.insert {entries : Entries α} (sorted : Sorted entries) (key : String) (value : α) :
    Sorted (insert entries key value) := by
  fun_induction Entries.insert entries key value with
  | case1 => simp [Sorted, keys]
  | case2 k v rest lt =>
    refine sorted_cons.2 ⟨fun l mem => ?_, sorted⟩
    rcases List.mem_cons.1 mem with rfl | mem
    · exact lt
    · exact String.lt_trans lt ((sorted_cons.1 sorted).1 l mem)
  | case3 v rest => exact sorted
  | case4 k v rest not_lt ne ih =>
    refine sorted_cons.2 ⟨fun l mem => ?_, ih (sorted_cons.1 sorted).2⟩
    rcases mem_keys_insert mem with rfl | mem
    · exact lt_of_not_lt not_lt ne
    · exact (sorted_cons.1 sorted).1 l mem

theorem insertIfAbsent_eq (entries : Entries α) (key : String) (value : α) :
    ∃ v, insertIfAbsent entries key value = insert entries key v := by
  fun_induction insertIfAbsent entries key value with
  | case1 => exact ⟨value, rfl⟩
  | case2 k v rest lt => exact ⟨value, by simp [insert, lt]⟩
  | case3 v rest not_lt => exact ⟨v, by simp [insert]⟩
  | case4 k v rest not_lt ne ih =>
    obtain ⟨w, eq⟩ := ih
    exact ⟨w, by simp [insert, not_lt, ne, eq]⟩

theorem sorted_sort (entries : Entries α) : Sorted (sort entries) := by
  induction entries with
  | nil => exact List.Pairwise.nil
  | cons entry entries ih =>
    obtain ⟨value, eq⟩ := insertIfAbsent_eq (sort entries) entry.1 entry.2
    rw [sort, List.foldr_cons, ← sort, eq]
    exact ih.insert entry.1 value

theorem Sorted.sublist {entries more : Entries α} (sorted : Sorted more)
    (sublist : entries.Sublist more) : Sorted entries :=
  List.Pairwise.sublist (sublist.map Prod.fst) sorted

theorem erase_sublist (entries : Entries α) (key : String) :
    (erase entries key).Sublist entries := by
  fun_induction erase entries key with
  | case1 => exact .slnil
  | case2 v rest => exact List.sublist_cons_self ..
  | case3 k v rest ne ih => exact ih.cons_cons _

theorem keys_mapValues (f : α → β) (entries : Entries α) :
    keys (mapValues f entries) = keys entries := by
  simp [keys, mapValues]

theorem keys_of_mapValues? {f : α → Option β} {entries : Entries α} {mapped : Entries β}
    (eq : mapValues? f entries = some mapped) : keys mapped = keys entries := by
  fun_induction mapValues? f entries generalizing mapped <;> grind [keys]

theorem find?_insert (entries : Entries α) (key k : String) (value : α) :
    find? (insert entries key value) k = if k = key then some value else find? entries k := by
  fun_induction insert entries key value <;> grind [find?]

theorem find?_eq_none_of_not_mem {entries : Entries α} {key : String} (not_mem : key ∉ keys entries) :
    find? entries key = none := by
  fun_induction find? entries key <;> grind [keys]

theorem find?_erase {entries : Entries α} (sorted : Sorted entries) (key k : String) :
    find? (erase entries key) k = if k = key then none else find? entries k := by
  fun_induction erase entries key with
  | case1 => simp [find?]
  | case2 v rest =>
    have not_mem : key ∉ keys rest := fun mem =>
      String.lt_irrefl key ((sorted_cons.1 sorted).1 key mem)
    by_cases eq : k = key
    · simp [eq, find?_eq_none_of_not_mem not_mem]
    · simp [find?, eq, Ne.symm eq]
  | case3 l v rest ne ih =>
    by_cases eq : l = k
    · simp [find?, eq, eq ▸ ne]
    · simp [find?, eq, ih (sorted_cons.1 sorted).2]

end Entries

structure SortedMap (α : Type) where
  entries : Entries α
  sorted : entries.Sorted
  deriving DecidableEq

namespace SortedMap

variable {α β : Type}

def empty : SortedMap α :=
  ⟨[], .nil⟩

instance : EmptyCollection (SortedMap α) :=
  ⟨empty⟩

instance : Inhabited (SortedMap α) :=
  ⟨empty⟩

def keys (map : SortedMap α) : List String :=
  map.entries.keys

def isEmpty (map : SortedMap α) : Bool :=
  map.entries.isEmpty

def find? (map : SortedMap α) (key : String) : Option α :=
  map.entries.find? key

def contains (map : SortedMap α) (key : String) : Bool :=
  map.entries.contains key

def insert (map : SortedMap α) (key : String) (value : α) : SortedMap α :=
  ⟨map.entries.insert key value, map.sorted.insert key value⟩

def erase (map : SortedMap α) (key : String) : SortedMap α :=
  ⟨map.entries.erase key, map.sorted.sublist (map.entries.erase_sublist key)⟩

def ofList (entries : Entries α) : SortedMap α :=
  ⟨entries.sort, entries.sorted_sort⟩

/-- The entries of `upper` override those of `lower`. -/
def overlay (lower upper : SortedMap α) : SortedMap α :=
  upper.entries.foldl (fun map entry => map.insert entry.1 entry.2) lower

def filterKeys (map : SortedMap α) (keep : String → Bool) : SortedMap α :=
  ⟨map.entries.filter fun entry => keep entry.1, map.sorted.sublist List.filter_sublist⟩

def mapValues (f : α → β) (map : SortedMap α) : SortedMap β :=
  ⟨map.entries.mapValues f, by
    rw [Entries.Sorted, Entries.keys_mapValues]; exact map.sorted⟩

def mapValues? (f : α → Option β) (map : SortedMap α) : Option (SortedMap β) :=
  match eq : map.entries.mapValues? f with
  | some mapped =>
    some ⟨mapped, by rw [Entries.Sorted, Entries.keys_of_mapValues? eq]; exact map.sorted⟩
  | none => none

@[simp]
theorem find?_insert (map : SortedMap α) (key k : String) (value : α) :
    (map.insert key value).find? k = if k = key then some value else map.find? k :=
  map.entries.find?_insert key k value

@[simp]
theorem find?_erase (map : SortedMap α) (key k : String) :
    (map.erase key).find? k = if k = key then none else map.find? k :=
  Entries.find?_erase map.sorted key k

end SortedMap

end Admission
