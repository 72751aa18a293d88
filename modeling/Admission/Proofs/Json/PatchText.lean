import Admission.Proofs.Json.PatchRereading
import Admission.Proofs.Json.Rendering
import Admission.Review.Basic

/-! The text of a patch is read back as the patch with its numbers re-read, and the text of a
difference tells whether there is one. -/

set_option autoImplicit false

namespace Admission.Json

namespace Patch

theorem Operation.ofJson?_toJson (operation : Operation) :
    Operation.ofJson? operation.toJson = some operation := by
  cases operation <;>
    simp [toJson, ofJson?, member?, Entries.find?, string?, Pointer.ofText?_text]

theorem ofJson?_toJson (patch : Patch) : ofJson? patch.toJson = some patch := by
  rw [toJson, ofJson?]
  induction patch with
  | nil => rfl
  | cons operation patch ih =>
    rw [List.map_cons, List.mapM_cons, Operation.ofJson?_toJson, ih]
    rfl

theorem Operation.canonical_toJson {operation : Operation} (carries : operation.Carries Canonical) :
    operation.toJson.Canonical := by
  have sorted : ["op", "path", "value"].Pairwise (· < ·) := by decide
  cases operation with
  | add path value =>
    have canonical : value.Canonical := carries.2
    exact .object sorted (by simp [Canonical.string, canonical])
  | remove path =>
    exact .object (sorted.sublist (List.sublist_append_left ["op", "path"] ["value"]))
      (by simp [Canonical.string])
  | replace path value =>
    have canonical : value.Canonical := carries
    exact .object sorted (by simp [Canonical.string, canonical])

theorem canonical_toJson {patch : Patch}
    (carries : ∀ operation ∈ patch, operation.Carries Canonical) : patch.toJson.Canonical := by
  refine .array fun item mem => ?_
  obtain ⟨operation, inPatch, rfl⟩ := List.mem_map.1 mem
  exact Operation.canonical_toJson (carries operation inPatch)

theorem Operation.depth_toJson {operation : Operation} {room : Nat}
    (carries : operation.Carries fun value => value.depth ≤ room) :
    operation.toJson.depth ≤ room + 1 := by
  cases operation with
  | add path value =>
    have fits : value.depth ≤ room := carries.2
    simpa [toJson, depth, depthMembers] using fits
  | remove path => simp [toJson, depth, depthMembers]
  | replace path value =>
    have fits : value.depth ≤ room := carries
    simpa [toJson, depth, depthMembers] using fits

theorem depth_toJson {patch : Patch} {room : Nat}
    (carries : ∀ operation ∈ patch, operation.Carries fun value => value.depth ≤ room) :
    patch.toJson.depth ≤ room + 2 := by
  refine depth_array_le_iff.2 fun item mem => ?_
  obtain ⟨operation, inPatch, rfl⟩ := List.mem_map.1 mem
  exact Operation.depth_toJson (carries operation inPatch)

/-- The patch that a text holds if it nests no deeper than `limit`. -/
def parseWithin (limit : Nat) (bytes : List UInt8) : Option Patch :=
  match Json.parseWithin limit bytes with
  | .ok tree => ofJson? tree.json
  | .error _ => none

/-- The patch that a text holds. No text nests deeper than it is long. -/
def ofBytes? (bytes : List UInt8) : Option Patch :=
  parseWithin bytes.length bytes

theorem parseWithin_render {patch : Patch}
    (carries : ∀ operation ∈ patch, operation.Carries Canonical) {limit : Nat}
    (fits : patch.toJson.depth ≤ limit) :
    parseWithin limit (Text.utf8Bytes patch.toJson.render) = some patch.reread := by
  rw [parseWithin, Json.parseWithin_render patch.toJson fits, ← toJson_reread]
  have canonical : patch.reread.toJson.Canonical := by
    rw [toJson_reread]
    exact (canonical_toJson carries).reread
  exact (congrArg ofJson? (Tree.json_ofJson canonical)).trans (ofJson?_toJson patch.reread)

theorem hasMutated_render (patch : Patch) :
    hasMutated (Text.utf8Bytes patch.toJson.render) = true ↔ patch ≠ [] := by
  rw [utf8Bytes_render]
  cases patch with
  | nil => simp [toJson, bytes, hasMutated]
  | cons operation patch =>
    have opens : ∃ more, operation.toJson.bytes = 123 :: more := by
      cases operation <;> exact ⟨_, rfl⟩
    obtain ⟨more, opens⟩ := opens
    simp [toJson, bytes, hasMutated, opens]

end Patch

theorem depthItems_le_length {items : List Json}
    (depth_le : ∀ item ∈ items, item.depth ≤ item.bytes.length) :
    depthItems items ≤ (itemsBytes items).length := by
  induction items with
  | nil => simp [depthItems]
  | cons item items ih =>
    rw [List.forall_mem_cons] at depth_le
    have rest := ih depth_le.2
    simp only [depthItems, itemsBytes, List.length_cons, List.length_append]
    omega

theorem depthMembers_le_length {members : List (String × Json)}
    (depth_le : ∀ member ∈ members, member.2.depth ≤ member.2.bytes.length) :
    depthMembers members ≤ (membersBytes members).length := by
  induction members with
  | nil => simp [depthMembers]
  | cons member members ih =>
    rw [List.forall_mem_cons] at depth_le
    have rest := ih depth_le.2
    simp only [depthMembers, membersBytes, List.length_cons, List.length_append]
    omega

theorem depth_le_length_bytes (json : Json) : json.depth ≤ json.bytes.length := by
  induction json with
  | null | bool | number | string => exact Nat.zero_le _
  | array items ih =>
    cases items with
    | nil => simp [depth, depthItems, bytes]
    | cons item items =>
      have rest : depthItems items ≤ (itemsBytes items).length :=
        depthItems_le_length fun item mem => ih item (List.mem_cons_of_mem _ mem)
      have first := ih item List.mem_cons_self
      simp only [depth, depthItems, bytes, List.length_cons, List.length_append]
      omega
  | object members ih =>
    cases members with
    | nil => simp [depth, depthMembers, bytes]
    | cons member members =>
      have rest : depthMembers members ≤ (membersBytes members).length :=
        depthMembers_le_length fun member mem => ih member (List.mem_cons_of_mem _ mem)
      have first := ih member List.mem_cons_self
      simp only [depth, depthMembers, bytes, List.length_cons, List.length_append]
      omega

/-- The text of a difference is read back as the difference with its numbers re-read. Its depth is
that of the new value and two more. -/
theorem parseWithin_diff (old : Json) {new : Json} (canonical : new.Canonical) {limit : Nat}
    (fits : new.depth + 2 ≤ limit) :
    Patch.parseWithin limit (Text.utf8Bytes (diff old new).toJson.render) =
      some (diff old new).reread := by
  have carries : ∀ operation ∈ diff old new, operation.Carries fun value => value.depth ≤ new.depth :=
    carries_diff (hereditary_depth new.depth) (Nat.le_refl _)
  exact Patch.parseWithin_render (carries_diff Canonical.hereditary canonical)
    (Nat.le_trans (Patch.depth_toJson carries) fits)

theorem ofBytes?_diff (old : Json) {new : Json} (canonical : new.Canonical) :
    Patch.ofBytes? (Text.utf8Bytes (diff old new).toJson.render) = some (diff old new).reread := by
  refine Patch.parseWithin_render (carries_diff Canonical.hereditary canonical) ?_
  rw [utf8Bytes_render]
  exact depth_le_length_bytes _

theorem reread_diff (old : Json) {new : Json} (reads : new.ReadsBack) :
    (diff old new).reread = diff old new :=
  Patch.reread_eq (carries_diff ReadsBack.hereditary reads)

theorem hasMutated_diff {old new : Json} (old_canonical : old.Canonical)
    (new_canonical : new.Canonical) :
    hasMutated (Text.utf8Bytes (diff old new).toJson.render) = true ↔ old.same new = false := by
  rw [Patch.hasMutated_render, ne_eq, diff_eq_nil_iff old_canonical new_canonical,
    Bool.not_eq_true]

end Admission.Json
