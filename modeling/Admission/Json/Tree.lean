import Admission.Json.Pointer

/-! Trees: JSON values whose objects list their members in increasing key order, each key once.
However a value is written, there is one tree of it. -/

set_option autoImplicit false

namespace Admission.Json

structure Tree where
  json : Json
  canonical : json.Canonical

namespace Tree

def null : Tree :=
  ⟨.null, .null⟩

instance : Inhabited Tree :=
  ⟨null⟩

def bool (value : Bool) : Tree :=
  ⟨.bool value, .bool value⟩

def number (value : Number) : Tree :=
  ⟨.number value, .number value⟩

def string (value : String) : Tree :=
  ⟨.string value, .string value⟩

def array (items : List Tree) : Tree where
  json := .array (items.map json)
  canonical := .array fun item mem => by
    obtain ⟨tree, -, rfl⟩ := List.mem_map.1 mem
    exact tree.canonical

def object (members : SortedMap Tree) : Tree where
  json := .object (members.entries.mapValues json)
  canonical := by
    refine .object ?_ fun member mem => ?_
    · rw [Entries.Sorted, Entries.keys_mapValues]
      exact members.sorted
    · obtain ⟨entry, -, rfl⟩ := List.mem_map.1 mem
      exact entry.2.canonical

def ofStringMap (map : SortedMap String) : Tree :=
  object (map.mapValues string)

mutual

/-- The tree of a value. Of members with one key the last wins. -/
def ofJson : Json → Tree
  | .null => null
  | .bool value => bool value
  | .number value => number value
  | .string value => string value
  | .array items => array (ofItems items)
  | .object members => object (.ofList (ofMembers members))

def ofItems : List Json → List Tree
  | [] => []
  | item :: items => ofJson item :: ofItems items

def ofMembers : List (String × Json) → Entries Tree
  | [] => []
  | (key, value) :: members => (key, ofJson value) :: ofMembers members

end

def string? (tree : Tree) : Option String :=
  tree.json.string?

def items? : Tree → Option (List Tree)
  | ⟨.array items, canonical⟩ => some (items.pmap Tree.mk canonical.of_mem_items)
  | _ => none

def members? : Tree → Option (SortedMap Tree)
  | ⟨.object members, canonical⟩ =>
    some {
      entries := members.pmap (fun member canonical => (member.1, ⟨member.2, canonical⟩))
        canonical.of_mem_members
      sorted := by
        rw [Entries.Sorted, Entries.keys, List.map_pmap, List.pmap_eq_map]
        exact canonical.members_sorted }
  | _ => none

def member? (tree : Tree) (key : String) : Option Tree :=
  tree.members?.bind (·.find? key)

def stringMap? (tree : Tree) : Option (SortedMap String) :=
  tree.members?.bind (·.mapValues? string?)

/-- The tree with the value at the end of the way changed; as it is if the way leads nowhere. -/
def modifyAt (tree : Tree) (pointer : Pointer) (change : Tree → Tree) : Tree :=
  match pointer with
  | [] => change tree
  | step :: pointer =>
    match tree.members?, tree.items? with
    | some members, _ =>
      match members.find? step with
      | some value => .object (members.insert step (value.modifyAt pointer change))
      | none => tree
    | none, some items =>
      match Pointer.index? step with
      | some index => .array (items.modify index fun value => value.modifyAt pointer change)
      | none => tree
    | none, none => tree

end Tree

end Admission.Json
