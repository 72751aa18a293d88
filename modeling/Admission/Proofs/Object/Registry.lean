import Mathlib.Data.List.Induction
import Admission.Proofs.Object.Creation

/-! Objects of the types in a registry. A registry is made by calls, the last one for a name counts,
and whatever the calls were the kind of an object is no reason for it not to come into being. -/

set_option autoImplicit false

namespace Admission

namespace Registry

inductive Call where
  | register (kind : Kubernetes.Kind)
  | registerAs (name : GroupVersionKind) (kind : Kubernetes.Kind)
  | registerPartialMetadata (name : GroupVersionKind)

namespace Call

def apply (registry : Registry) : Call → Registry
  | .register kind => registry.register kind
  | .registerAs name kind => registry.registerAs name kind
  | .registerPartialMetadata name => registry.registerPartialMetadata name

def name : Call → GroupVersionKind
  | .register kind => kind.identity
  | .registerAs name _ => name
  | .registerPartialMetadata name => name

def registration : Call → Registration
  | .register kind => .type kind
  | .registerAs _ kind => .type kind
  | .registerPartialMetadata _ => .partialMetadata

theorem apply_eq_add (registry : Registry) (call : Call) :
    call.apply registry = registry.add call.name call.registration := by
  cases call <;> rfl

end Call

def build (calls : List Call) : Registry :=
  calls.foldl Call.apply empty

def lastCall? (calls : List Call) (name : GroupVersionKind) : Option Call :=
  (calls.filter fun call => decide (call.name = name)).getLast?

theorem find?_filter_ne (registry : Registry) {name other : GroupVersionKind} (ne : other ≠ name) :
    find? (registry.filter fun entry => !decide (entry.1 = name)) other = find? registry other := by
  induction registry with
  | nil => rfl
  | cons entry registry ih =>
    obtain ⟨key, registration⟩ := entry
    simp only [find?] at ih ⊢
    by_cases dropped : key = name
    · have differs : (other == key) = false := beq_false_of_ne (dropped ▸ ne)
      simp [dropped, ih, List.lookup_cons, dropped ▸ differs]
    · simp [dropped, ih, List.lookup_cons]

theorem find?_add (registry : Registry) (name other : GroupVersionKind)
    (registration : Registration) :
    (registry.add name registration).find? other =
      if other = name then some registration else registry.find? other := by
  split
  next eq => simp [add, find?, eq]
  next ne =>
    have differs : (other == name) = false := beq_false_of_ne ne
    rw [← find?_filter_ne registry ne]
    simp [add, find?, List.lookup_cons, differs]

/-- What the last call for a name registered is what the registry has for it. -/
theorem find?_build (calls : List Call) (name : GroupVersionKind) :
    (build calls).find? name = (lastCall? calls name).map Call.registration := by
  induction calls using List.reverseRecOn with
  | nil => rfl
  | append_singleton calls call ih =>
    rw [build, List.foldl_append, List.foldl_cons, List.foldl_nil, ← build, Call.apply_eq_add,
      find?_add, lastCall?, List.filter_append]
    by_cases eq : call.name = name
    · simp [eq]
    · simp [eq, Ne.symm eq, ih, lastCall?]

theorem kubernetes_eq_build :
    kubernetes = build (Kubernetes.Kind.all.map .register ++
      [.registerPartialMetadata ⟨"", "v1", "List"⟩,
        .registerPartialMetadata ⟨"meta.k8s.io", "v1", "Status"⟩]) :=
  rfl

end Registry

theorem splitSlash_eq_none_iff {text : List Char} : splitSlash text = none ↔ '/' ∉ text := by
  fun_induction splitSlash text with
  | case1 => simp
  | case2 rest => simp
  | case3 c rest ne ih => simp [ih, Ne.symm ne]

theorem splitSlash_eq_some_iff {text before behind : List Char} :
    splitSlash text = some (before, behind) ↔
      '/' ∉ before ∧ before ++ '/' :: behind = text := by
  fun_induction splitSlash text generalizing before with
  | case1 => simp
  | case2 rest =>
    cases before with
    | nil => simp [eq_comm]
    | cons d before =>
      simp only [Option.some.injEq, Prod.mk.injEq, reduceCtorEq, false_and, false_iff, not_and,
        List.cons_append, List.cons.injEq, List.mem_cons, not_or]
      exact fun free eq => absurd eq.symm free.1
  | case3 c rest ne ih =>
    cases before with
    | nil => simp [Ne.symm ne]
    | cons d before =>
      simp only [Option.map_eq_some_iff, Prod.exists, Prod.mk.injEq, List.cons.injEq,
        List.cons_append, List.mem_cons, not_or]
      constructor
      · rintro ⟨_, _, split, ⟨rfl, rfl⟩, rfl⟩
        exact ⟨⟨Ne.symm ne, (ih.1 split).1⟩, rfl, (ih.1 split).2⟩
      · rintro ⟨⟨-, free⟩, rfl, eq⟩
        exact ⟨before, behind, ih.2 ⟨free, eq⟩, ⟨rfl, rfl⟩, rfl⟩

namespace GroupVersionKind

/-- An API version spells the group and the version of a name: joined by the first slash, or in the
core group the version alone. -/
inductive SpelledBy (kind : String) : GroupVersionKind → String → Prop where
  | core {version : String} (slashless : '/' ∉ version.toList) :
    SpelledBy kind ⟨"", version, kind⟩ version
  | grouped {group version : String} (slashless : '/' ∉ group.toList) :
    SpelledBy kind ⟨group, version, kind⟩ (group ++ "/" ++ version)

theorem ofApiVersion_eq_iff {apiVersion kind : String} {name : GroupVersionKind} :
    ofApiVersion apiVersion kind = name ↔ SpelledBy kind name apiVersion := by
  rw [ofApiVersion]
  constructor
  · rintro rfl
    cases split : splitSlash apiVersion.toList with
    | none => exact .core (splitSlash_eq_none_iff.1 split)
    | some parts =>
      obtain ⟨free, joined⟩ := splitSlash_eq_some_iff.1 split
      have spelled : apiVersion = String.ofList parts.1 ++ "/" ++ String.ofList parts.2 := by
        rw [← String.toList_inj, ← joined]
        simp
      exact spelled ▸ .grouped (by simpa using free)
  · rintro (slashless | slashless)
    · rw [splitSlash_eq_none_iff.2 slashless]
    · rename_i group version
      have split : splitSlash (group ++ "/" ++ version).toList =
          some (group.toList, version.toList) :=
        splitSlash_eq_some_iff.2 ⟨slashless, by simp⟩
      rw [split]
      simp

structure DeclaredBy (json : Json) (name : GroupVersionKind) : Prop where
  kind : json.member? "kind" = some (.string name.kind)
  apiVersion : ∃ text, json.member? "apiVersion" = some (.string text) ∧
    SpelledBy name.kind name text

theorem SpelledBy.kind_eq {kind apiVersion : String} {name : GroupVersionKind}
    (spelled : SpelledBy kind name apiVersion) : name.kind = kind := by
  cases spelled <;> rfl

theorem ofObject?_eq_some_iff {json : Json} {name : GroupVersionKind} :
    ofObject? json = some name ↔ DeclaredBy json name := by
  have string_iff {field text : String} :
      (json.member? field).bind Json.string? = some text ↔
        json.member? field = some (.string text) := by
    cases json.member? field with
    | none => simp
    | some value => cases value <;> simp [Json.string?]
  constructor
  · intro named
    simp only [ofObject?] at named
    split at named
    next apiVersion kind held_version held_kind =>
      have spelled := ofApiVersion_eq_iff.1 (Option.some.inj named)
      obtain rfl := spelled.kind_eq
      exact ⟨string_iff.1 held_kind, apiVersion, string_iff.1 held_version, spelled⟩
    next => cases named
  · rintro ⟨kind, apiVersion, held, spelled⟩
    simp only [ofObject?, string_iff.2 kind, string_iff.2 held, ofApiVersion_eq_iff.2 spelled]

end GroupVersionKind

/-- A text that is not empty holds the value of the JSON it is, or if it is none the value of the
YAML. -/
inductive Holds (raw : Bytes) (tree : Json.Tree) : Prop where
  | json (nonempty : raw ≠ []) (parsed : Json.parse raw = .ok tree)
  | yaml (nonempty : raw ≠ []) {error : Json.Error} (unparsed : Json.parse raw = .error error)
    (parsed : Yaml.parse raw = some tree)

inductive Creator.Fails (raw : Bytes) : ObjectError → Prop where
  | empty (empty : raw = []) : Fails raw .empty
  | malformed (nonempty : raw ≠ []) {error : Json.Error} (json : Json.parse raw = .error error)
    (yaml : Yaml.parse raw = none) : Fails raw (.malformed error)
  | notAnObject {tree : Json.Tree} (holds : Holds raw tree) (other : tree.json.isObject = false) :
    Fails raw (.notAnObject tree.json)

theorem decodeRaw_eq_ok_iff {raw : Bytes} {tree : Json.Tree} :
    decodeRaw raw = .ok tree ↔ Holds raw tree := by
  rw [decodeRaw]
  constructor
  · intro decoded
    split at decoded
    · cases decoded
    next nonempty =>
      have nonempty : raw ≠ [] := by simpa using nonempty
      split at decoded
      next parsed => cases decoded; exact .json nonempty parsed
      next unparsed =>
        split at decoded
        next parsed => cases decoded; exact .yaml nonempty unparsed parsed
        next => cases decoded
  · rintro (⟨nonempty, parsed⟩ | ⟨nonempty, unparsed, parsed⟩)
    · simp [nonempty, parsed]
    · simp [nonempty, unparsed, parsed]

theorem Creator.Fails.of_decodeRaw {raw : Bytes} {error : ObjectError}
    (failed : decodeRaw raw = .error error) : Fails raw error := by
  rw [decodeRaw] at failed
  split at failed
  next empty => cases failed; exact .empty (by simpa using empty)
  next nonempty =>
    split at failed
    next => cases failed
    next unparsed =>
      split at failed
      next => cases failed
      next yaml => cases failed; exact .malformed (by simpa using nonempty) unparsed yaml

/-! ## Objects from a text -/

namespace Registry

/-- The last call for the kind that a value declares registered a type that decodes it. -/
structure Decodes (calls : List Call) (json : Json) (kind : Kubernetes.Kind) (object : Typed) :
    Prop where
  registered : ∃ name call, GroupVersionKind.DeclaredBy json name ∧
    lastCall? calls name = some call ∧ call.registration = .type kind
  decoded : Typed.decode kind json = .ok object

theorem declines_build {calls : List Call} {json : Json}
    (none : ∀ kind object, ¬ Decodes calls json kind object) : (build calls).Declines json := by
  intro name kind named found object decoded
  rw [find?_build, Option.map_eq_some_iff] at found
  obtain ⟨call, last, registered⟩ := found
  exact none kind object
    ⟨⟨name, call, GroupVersionKind.ofObject?_eq_some_iff.1 named, last, registered⟩, decoded⟩

theorem Decodes.isObject {calls : List Call} {json : Json} {kind : Kubernetes.Kind}
    {object : Typed} (decodes : Decodes calls json kind object) : json.isObject = true := by
  obtain ⟨⟨name, -, declared, -⟩, -⟩ := decodes
  have held := declared.kind
  cases json with
  | object members => rfl
  | _ => cases held

end Registry

namespace Creator

open Registry (Call Decodes)

theorem newObject_of_holds (creator : Creator) {raw : Bytes} {tree : Json.Tree}
    (holds : Holds raw tree) : creator.newObject raw = creator.ofTree tree := by
  rw [newObject, decodeRaw_eq_ok_iff.2 holds]

theorem newObject_of_error (creator : Creator) {raw : Bytes} {error : ObjectError}
    (failed : decodeRaw raw = .error error) : (creator.newObject raw).result = .error error := by
  rw [newObject, failed]
  cases error <;> rfl

theorem ofTree_of_decodes {calls : List Call} {tree : Json.Tree} {kind : Kubernetes.Kind}
    {object : Typed} (decodes : Decodes calls tree.json kind object) :
    ((dynamic (.build calls)).ofTree tree).result = .ok (.typed object) := by
  obtain ⟨⟨name, call, declared, last, registered⟩, decoded⟩ := decodes
  have found : (Registry.build calls).find? name = some (.type kind) := by
    rw [Registry.find?_build, last, Option.map_some, registered]
  simp [ofTree, GroupVersionKind.ofObject?_eq_some_iff.2 declared, found, decoded]

theorem static_ofTree {tree : Json.Tree} {kind : Kubernetes.Kind} {object : Typed}
    (decoded : Typed.decode kind tree.json = .ok object) :
    ((static kind).ofTree tree).result = .ok (.typed object) := by
  simp [ofTree, decoded]

theorem ofTree_of_isObject {calls : List Call} {tree : Json.Tree}
    (isObject : tree.json.isObject = true)
    (none : ∀ kind object, ¬ Decodes calls tree.json kind object) :
    ((dynamic (.build calls)).ofTree tree).result = .ok (.generic (.ofTree tree)) := by
  rw [ofTree_of_declines (Registry.declines_build none), genericObject, Generic.ofTree?, isObject]
  rfl

theorem ofTree_of_not_isObject (calls : List Call) {tree : Json.Tree}
    (other : tree.json.isObject = false) :
    ((dynamic (.build calls)).ofTree tree).result = .error (.notAnObject tree.json) := by
  have none kind object (decodes : Decodes calls tree.json kind object) : False :=
    Bool.false_ne_true (other ▸ decodes.isObject)
  rw [ofTree_of_declines (Registry.declines_build none), genericObject, Generic.ofTree?, other]
  rfl

/-- With whatever registry, an object fails to come into being only for what its text is; the kind
decides no more than whether it is of a type, the one that the type alone would have made, or
generic and written as it was received. -/
theorem materialization (calls : List Call) (raw : Bytes) :
    (∀ error, ((dynamic (.build calls)).newObject raw).result = .error error ↔ Fails raw error) ∧
    ∀ tree, Holds raw tree → tree.json.isObject = true →
      (∀ kind object, Decodes calls tree.json kind object →
        ((dynamic (.build calls)).newObject raw).result = .ok (.typed object) ∧
        ((static kind).newObject raw).result = .ok (.typed object)) ∧
      ((∀ kind object, ¬ Decodes calls tree.json kind object) →
        ∃ object, ((dynamic (.build calls)).newObject raw).result = .ok (.generic object) ∧
          (Object.generic object).toJson = tree.json) := by
  refine ⟨fun error => ⟨fun failed => ?_, fun fails => ?_⟩, fun tree holds isObject => ⟨?_, ?_⟩⟩
  · -- a tree that is an object becomes one in any case, so that only the text or its root can fail
    cases decoded : decodeRaw raw with
    | error cause =>
      rw [newObject_of_error _ decoded] at failed
      cases failed
      exact .of_decodeRaw decoded
    | ok tree =>
      have holds := decodeRaw_eq_ok_iff.1 decoded
      rw [newObject_of_holds _ holds] at failed
      cases isObject : tree.json.isObject with
      | false =>
        rw [ofTree_of_not_isObject calls isObject] at failed
        cases failed
        exact .notAnObject holds isObject
      | true =>
        by_cases typed : ∃ kind object, Decodes calls tree.json kind object
        · obtain ⟨kind, object, decodes⟩ := typed
          rw [ofTree_of_decodes decodes] at failed
          cases failed
        · rw [ofTree_of_isObject isObject (by simpa using typed)] at failed
          cases failed
  · cases fails with
    | empty empty => exact newObject_of_error _ (by rw [decodeRaw, empty]; rfl)
    | malformed nonempty json yaml =>
      exact newObject_of_error _ (by simp [decodeRaw, nonempty, json, yaml])
    | notAnObject holds other =>
      rw [newObject_of_holds _ holds, ofTree_of_not_isObject calls other]
  · intro kind object decodes
    rw [newObject_of_holds _ holds, newObject_of_holds _ holds]
    exact ⟨ofTree_of_decodes decodes, static_ofTree decodes.decoded⟩
  · intro none
    rw [newObject_of_holds _ holds]
    exact ⟨.ofTree tree, ofTree_of_isObject isObject none,
      congrArg Json.Tree.json (Generic.toTree_ofTree tree)⟩

theorem made_of_ofTree {registry : Registry} {tree : Json.Tree} {object : Object}
    (created : ((dynamic registry).ofTree tree).result = .ok object) :
    (∃ kind typed, Typed.decode kind tree.json = .ok typed ∧ object = .typed typed) ∨
      tree.json.isObject = true ∧ object = .generic (.ofTree tree) := by
  have generic (made : genericObject tree = .ok object) :
      tree.json.isObject = true ∧ object = .generic (.ofTree tree) := by
    rw [genericObject, Generic.ofTree?] at made
    cases root : tree.json.isObject with
    | false => simp [root] at made
    | true =>
      simp only [root, if_pos] at made
      cases made
      exact ⟨rfl, rfl⟩
  rw [ofTree] at created
  split at created
  next => exact .inr (generic created)
  next =>
    split at created
    next => exact .inr (generic created)
    next => exact .inr (generic created)
    next kind _ =>
      split at created
      next typed decoded => cases created; exact .inl ⟨kind, typed, decoded, rfl⟩
      next => exact .inr (generic created)

def barePod : Json :=
  .object [("apiVersion", .string "v1"), ("kind", .string "Pod")]

/-- A pod is one where its type was registered last, and generic where its kind was last said to
have no full metadata. -/
theorem materialization_barePod :
    (∃ object, ((dynamic (.build [.registerPartialMetadata ⟨"", "v1", "Pod"⟩,
      .register .pod])).newObject (rawBytes (some barePod))).result = .ok (.typed object)) ∧
    ∃ object, ((dynamic (.build [.register .pod,
      .registerPartialMetadata ⟨"", "v1", "Pod"⟩])).newObject
        (rawBytes (some barePod))).result = .ok (.generic object) ∧
      (Object.generic object).toJson = barePod := by
  have holds : Holds (rawBytes (some barePod)) (.ofJson barePod) :=
    decodeRaw_eq_ok_iff.1 (decodeRaw_rawBytes rfl (by decide))
  have json_eq : (Json.Tree.ofJson barePod).json = barePod := rfl
  have named : GroupVersionKind.ofObject? barePod = some ⟨"", "v1", "Pod"⟩ := by decide +kernel
  have declared := GroupVersionKind.ofObject?_eq_some_iff.1 named
  obtain ⟨object, decoded⟩ : ∃ object, Typed.decode .pod barePod = .ok object := by
    cases result : Typed.decode .pod barePod with
    | ok object => exact ⟨object, rfl⟩
    | error cause =>
      have accepted : (Typed.decode .pod barePod).isOk = true := by decide +kernel
      rw [result] at accepted
      cases accepted
  constructor
  · have made := (materialization [.registerPartialMetadata ⟨"", "v1", "Pod"⟩, .register .pod]
      (rawBytes (some barePod))).2 _ holds rfl
    rw [json_eq] at made
    exact ⟨object, (made.1 .pod object ⟨⟨_, .register .pod, declared, rfl, rfl⟩, decoded⟩).1⟩
  · have made := (materialization [.register .pod, .registerPartialMetadata ⟨"", "v1", "Pod"⟩]
      (rawBytes (some barePod))).2 _ holds rfl
    rw [json_eq] at made
    refine made.2 fun kind typed decodes => ?_
    obtain ⟨⟨name, call, others, last, registered⟩, -⟩ := decodes
    have same := (GroupVersionKind.ofObject?_eq_some_iff.2 others).symm.trans named
    cases same
    cases last
    cases registered

end Creator

end Admission
