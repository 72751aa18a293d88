import Admission.Proofs.Object.Coherence

/-! A change of the tree of a generic object is a change of the tree that the object is written as:
it is handed every edit that was made before, and what it leaves behind is what the object is made of
from then on. -/

set_option autoImplicit false

namespace Admission.Generic

open Json (Tree)

/-- The object was made of a tree and edited since, be it by changes that left its root no object. -/
inductive Reached : Generic → Prop where
  | made {data : Tree} {object : Generic} (made : ofTree? data = some object) : Reached object
  | edit {object next : Generic} {edit : Edit} (before : Reached object)
    (edited : (Object.generic object).edit edit = .ok (.generic next)) : Reached next

theorem Reached.kept {object : Generic} (reached : object.Reached) : object.Kept := by
  induction reached with
  | @made data object made =>
    rw [ofTree?] at made
    split at made
    · cases made
      exact .ofTree data
    · cases made
  | edit before edited ih => exact ih.edit edited

theorem Reached.coherent {object : Generic} (reached : object.Reached)
    (root : object.data.json.isObject = true) : object.Coherent :=
  WellKept.coherent ⟨reached.kept, root⟩

theorem setMetadata_eq_self {data : Tree} (root : data.json.isObject = false) (field : String)
    (value : Tree) : setMetadata data field value = data := by
  obtain ⟨json, canonical⟩ := data
  cases json with
  | object members => cases root
  | _ => rfl

theorem writeMap_eq_self {data : Tree} (root : data.json.isObject = false) (field : String)
    (map : Option (SortedMap String)) : writeMap data field map = data := by
  cases map with
  | none => rfl
  | some map =>
    simp only [writeMap]
    split
    · rfl
    · exact setMetadata_eq_self root field _

theorem toTree_eq_data {object : Generic} (root : object.data.json.isObject = false) :
    object.toTree = object.data := by
  rw [toTree, writeMap_eq_self root, writeMap_eq_self root]

/-- An object that is changed is written as the change of what it was written as before, and if that
is an object, it is the one made of it anew. What the change is handed shows all that the object
told, unless the root has no place for it. -/
theorem update_commutes {object : Generic} (reached : object.Reached) (change : Tree → Tree) :
    ∃ updated, (Object.generic object).edit (.update change) = .ok (.generic updated) ∧
      updated.toTree = change object.toTree ∧
      ((change object.toTree).json.isObject = true →
        ofTree? (change object.toTree) = some updated) ∧
      (object.data.json.isObject = true → object.Coherent) ∧
      (object.data.json.isObject = false → object.toTree = object.data) :=
  ⟨object.update change, rfl, toTree_ofTree (change object.toTree), fun root => if_pos root,
    reached.coherent, toTree_eq_data⟩

/-- A label that was set shows in the tree that is changed, and is gone once the change takes it
out. -/
theorem update_commutes_dropping : ∃ labelled updated : Generic, labelled.Reached ∧
    labelled.data = bare ∧ labelled.Coherent ∧
    labelled.toTree.json.metadata? "labels" =
      some (.ofStringMap ((∅ : SortedMap String).insert "app" "web")) ∧
    (Object.generic labelled).edit (.update fun _ => bare) = .ok (.generic updated) ∧
    updated.toTree = bare ∧ ofTree? bare = some updated ∧ updated.labels = none := by
  let labels : SortedMap String := (∅ : SortedMap String).insert "app" "web"
  have made : ofTree? bare = some (ofTree bare) := rfl
  have inserted : (Object.generic (ofTree bare)).edit (.labels (.insert "app" "web")) =
      .ok (.generic ⟨bare, some labels, none⟩) := rfl
  have reached : Reached ⟨bare, some labels, none⟩ := .edit (.made made) inserted
  obtain ⟨updated, edited, written, anew, coherent, -⟩ := update_commutes reached fun _ => bare
  obtain rfl : ofTree bare = updated := Option.some_inj.1 (anew rfl)
  exact ⟨_, _, reached, rfl, coherent rfl, rfl, edited, written, rfl, rfl⟩

end Admission.Generic
