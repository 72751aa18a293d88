import Admission.Json.Shape
import Admission.Proofs.Json.Structure
import Admission.Proofs.SortedMap

/-! What is read from a text nests no deeper than there is room. -/

set_option autoImplicit false

namespace Admission.Json

theorem map_eq_ok {ε α β : Type} {result : Except ε α} {f : α → β} {b : β}
    (eq : result.map f = .ok b) : ∃ a, result = .ok a ∧ f a = b := by
  cases result with
  | error error => cases eq
  | ok a =>
    cases eq
    exact ⟨a, rfl, rfl⟩

theorem bind_eq_ok {ε α β : Type} {result : Except ε α} {f : α → Except ε β} {b : β}
    (eq : result.bind f = .ok b) : ∃ a, result = .ok a ∧ f a = .ok b := by
  cases result with
  | error error => cases eq
  | ok a => exact ⟨a, rfl, eq⟩

theorem mapError_eq_ok {ε ε' α : Type} {result : Except ε α} {f : ε → ε'} {a : α}
    (eq : result.mapError f = .ok a) : result = .ok a := by
  cases result with
  | error error => cases eq
  | ok a =>
    cases eq
    rfl

theorem readWith_eq_ok {α : Type} {document : Document} {read : Node → Except Fault α} {a : α}
    (eq : document.readWith read = .ok a) : read document.root = .ok a := by
  rw [Document.readWith] at eq
  split at eq
  · cases eq
  · exact eq

theorem read_of_parseAs {shape : Shape} {body : List UInt8} {json : Json}
    (parsed : parseAs shape body = .ok json) :
    (document body).root.read shape nestingLimit = .ok json :=
  readWith_eq_ok (mapError_eq_ok parsed)

theorem value_of_parse {body : List UInt8} {tree : Tree} (parsed : parse body = .ok tree) :
    (document body).root.value nestingLimit = .ok tree :=
  readWith_eq_ok (mapError_eq_ok parsed)

theorem mem_of_mem_insertIfAbsent {α : Type} {entries : Entries α} {key : String} {value : α}
    {entry : String × α} (mem : entry ∈ Entries.insertIfAbsent entries key value) :
    entry = (key, value) ∨ entry ∈ entries := by
  fun_induction Entries.insertIfAbsent entries key value <;> grind

theorem mem_of_mem_sort {α : Type} {entries : Entries α} {entry : String × α}
    (mem : entry ∈ Entries.sort entries) : entry ∈ entries := by
  induction entries with
  | nil => exact mem
  | cons first entries ih =>
    rw [Entries.sort, List.foldr_cons, ← Entries.sort] at mem
    rcases mem_of_mem_insertIfAbsent mem with rfl | mem
    · exact List.mem_cons_self
    · exact List.mem_cons_of_mem _ (ih mem)

theorem Node.induction {motive : Node → Prop}
    (scalar : ∀ value start stop, motive (.scalar value start stop))
    (array : ∀ start abandoned items ending, (∀ item ∈ items, motive item) →
      motive (.array start abandoned items ending))
    (object : ∀ start members ending, (∀ member ∈ members, motive member.2) →
      motive (.object start members ending))
    (broken : ∀ start fault, motive (.broken start fault)) (node : Node) : motive node :=
  Node.rec (motive_1 := motive) (motive_2 := fun items => ∀ item ∈ items, motive item)
    (motive_3 := fun members => ∀ member ∈ members, motive member.2)
    (motive_4 := fun member => motive member.2)
    scalar (fun start abandoned items ending ih => array start abandoned items ending ih)
    (fun start members ending ih => object start members ending ih) broken
    (by simp) (fun _ _ head tail => List.forall_mem_cons.2 ⟨head, tail⟩)
    (by simp) (fun _ _ head tail => List.forall_mem_cons.2 ⟨head, tail⟩)
    (fun _ _ value => value) node

theorem exists_of_forall₂ {α β : Type} {R : α → β → Prop} {xs : List α} {ys : List β}
    (pairs : List.Forall₂ R xs ys) : ∀ y ∈ ys, ∃ x ∈ xs, R x y := by
  induction pairs with
  | nil => simp
  | cons head tail ih =>
    refine List.forall_mem_cons.2 ⟨⟨_, List.mem_cons_self, head⟩, fun y mem => ?_⟩
    obtain ⟨x, inXs, related⟩ := ih y mem
    exact ⟨x, List.mem_cons_of_mem _ inXs, related⟩

theorem itemValues_eq_ok {items : List Node} {room : Nat} {ending : Ending}
    {before trees : List Tree} (read : itemValues items room ending before = .ok trees) :
    ∃ values, trees = before.reverse ++ values ∧
      List.Forall₂ (fun item value => item.value room = .ok value) items values := by
  induction items generalizing before with
  | nil =>
    cases ending with
    | closed stop =>
      cases read
      exact ⟨[], (List.append_nil _).symm, .nil⟩
    | broken fault => cases read
  | cons item items ih =>
    rw [itemValues] at read
    cases value : item.value room with
    | error fault =>
      rw [value] at read
      cases read
    | ok tree =>
      rw [value] at read
      obtain ⟨values, rfl, pairs⟩ := ih read
      exact ⟨tree :: values, by simp, .cons value pairs⟩

theorem memberValues_eq_ok {members : List (Key × Node)} {room : Nat} {ending : Ending}
    {before entries : Entries Tree} (read : memberValues members room ending before = .ok entries) :
    ∃ values, entries = before.reverse ++ values ∧
      List.Forall₂ (fun member entry => member.1.text = .ok entry.1 ∧
        member.2.value room = .ok entry.2) members values := by
  induction members generalizing before with
  | nil =>
    cases ending with
    | closed stop =>
      cases read
      exact ⟨[], (List.append_nil _).symm, .nil⟩
    | broken fault => cases read
  | cons member members ih =>
    obtain ⟨key, node⟩ := member
    rw [memberValues] at read
    cases text : key.text with
    | error fault =>
      rw [text] at read
      cases read
    | ok name =>
      rw [text] at read
      cases value : node.value room with
      | error fault =>
        rw [value] at read
        cases read
      | ok tree =>
        rw [value] at read
        obtain ⟨values, rfl, pairs⟩ := ih read
        exact ⟨(name, tree) :: values, by simp, .cons ⟨text, value⟩ pairs⟩

theorem depth_of_scalar {scalar : Scalar} {tree : Tree} (read : scalar.value = .ok tree) :
    tree.json.depth = 0 := by
  cases scalar with
  | null | bool =>
    cases read
    rfl
  | number value | string value =>
    cases value <;> cases read
    rfl

theorem depth_of_value (node : Node) {room : Nat} {tree : Tree}
    (read : node.value room = .ok tree) : tree.json.depth ≤ room := by
  induction node using Node.induction generalizing room tree with
  | scalar value start stop =>
    rw [depth_of_scalar read]
    exact Nat.zero_le room
  | array start abandoned items ending ih =>
    cases room with
    | zero => cases read
    | succ room =>
      obtain ⟨trees, values, rfl⟩ := map_eq_ok read
      obtain ⟨_, rfl, pairs⟩ := itemValues_eq_ok values
      refine depth_array_le_iff.2 fun item mem => ?_
      obtain ⟨tree, inTrees, rfl⟩ := List.mem_map.1 mem
      obtain ⟨node, inItems, value⟩ := exists_of_forall₂ pairs tree inTrees
      exact ih node inItems value
  | object start members ending ih =>
    cases room with
    | zero => cases read
    | succ room =>
      obtain ⟨entries, values, rfl⟩ := map_eq_ok read
      obtain ⟨_, rfl, pairs⟩ := memberValues_eq_ok values
      refine depth_object_le_iff.2 fun member mem => ?_
      obtain ⟨entry, inEntries, rfl⟩ := List.mem_map.1 mem
      -- sorting only drops members
      obtain ⟨node, inMembers, -, value⟩ :=
        exists_of_forall₂ pairs entry (mem_of_mem_sort inEntries)
      exact ih node inMembers value
  | broken start fault => cases read

end Admission.Json
