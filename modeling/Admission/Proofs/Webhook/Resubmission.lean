import Admission.Proofs.Object.Relabelling
import Admission.Proofs.Text.Utf8
import Admission.Proofs.Webhook.Mutating
import Admission.Proofs.Webhook.MutatorNesting

/-! What a webhook that sets labels made of an object can be reviewed again. The same webhook then
finds nothing to change, and one that requires some of the labels lets the object pass, if the text
of the object holds the object, be it with numbers that were re-read. -/

set_option autoImplicit false

namespace Admission

open Text (utf8Bytes)

variable {σ τ : Type}

namespace Labels

variable {labels : SortedMap String} {required : List String} {context : Context} {review : Review}
  {object : Object}

/-- Business logic that sets labels and does nothing else. -/
inductive Sets (labels : SortedMap String) : Mutator σ → Prop where
  | alone : Sets labels (mutator labels)
  | chained (logger : Logger) : Sets labels (.chain logger [mutator labels])

theorem Sets.run {logic : Mutator σ} {state : State σ} (sets : Sets labels logic)
    (notDone : context.isDone state.world = false) : ∃ after, logic.run context review object state =
      ⟨.done { warnings := warnings (object.labels.getD ∅) labels }, label labels object, after⟩ := by
  have ran : (mutator labels).run context review object state =
      ⟨.done { warnings := warnings (object.labels.getD ∅) labels }, label labels object, state⟩ := rfl
  cases sets with
  | alone => exact ⟨state, ran⟩
  | chained logger =>
    refine ⟨state, ?_⟩
    rw [Mutator.run, Mutator.runSteps_of_done notDone ran rfl rfl, Mutator.runSteps]
    rfl

inductive Requires (required : List String) : Validator σ → Prop where
  | alone : Requires required (validator required)
  | chained (logger : Logger) : Requires required (.chain logger [validator required])

theorem Requires.run {logic : Validator σ} {state : State σ} (requires : Requires required logic)
    (review : Review) (notDone : context.isDone state.world = false)
    (there : missing required object.labels = []) :
    ∃ after, logic.run context review object state = ⟨.done {}, after⟩ := by
  have ran : (validator required).run context review object state = ⟨.done {}, state⟩ := by
    have nothing : ", ".intercalate (missing required object.labels) = "" := by rw [there]; rfl
    simp only [validator, Validator.run, nothing, or_true, if_pos]
  cases requires with
  | alone => exact ⟨state, ran⟩
  | chained logger =>
    refine ⟨state, ?_⟩
    rw [Validator.run, Validator.runSteps, if_neg (by simp [notDone]), ran]
    rfl

theorem warnings_of_carries {current : SortedMap String} (carries : current.Carries labels) :
    warnings current labels = [] := by
  refine List.filterMap_eq_nil_iff.2 fun entry mem => ?_
  have held := carries entry.1 entry.2 (labels.sorted.find?_of_mem mem)
  simp [held]

theorem missing_of_carries {current : Option (SortedMap String)}
    (carries : (current.getD ∅).Carries labels)
    (known : ∀ key ∈ required, labels.contains key = true) : missing required current = [] := by
  refine List.filter_eq_nil_iff.2 fun key mem => ?_
  obtain ⟨value, found⟩ := Option.isSome_iff_exists.1 (known key mem)
  have held : (current.getD ∅).contains key = true :=
    Option.isSome_iff_exists.2 ⟨value, carries key value found⟩
  simp [held]

end Labels

namespace Reviewer

/-- Whatever review the text is received in, the webhook has nothing to change and to say. -/
def LeavesAsIs (reviewer : Reviewer (Mutator σ)) (text : Bytes) : Prop :=
  ∀ (context : Context) (review : Review) (state : State σ),
    review.rawObject = text → context.isDone state.world = false →
      (reviewer.mutate context review state).outcome =
        .done (.mutating review.id (utf8Bytes "[]") [])

def Admits (reviewer : Reviewer (Validator σ)) (text : Bytes) : Prop :=
  ∀ (context : Context) (review : Review) (state : State σ),
    review.rawObject = text → context.isDone state.world = false →
      (reviewer.validate context review state).outcome = .done (.validating review.id true "" [])

variable {reviewer : Reviewer (Mutator σ)} {registry : Registry} {labels : SortedMap String}
  {context : Context} {review : Review} {state : State σ} {object : Object}

theorem mutation_of_sets (sets : Labels.Sets labels reviewer.logic) (review : Review)
    (object : Object) (notDone : context.isDone state.world = false) : ∃ after,
      reviewer.mutation context review object state =
        ⟨.done { warnings := Labels.warnings (object.labels.getD ∅) labels },
          Labels.label labels object, after⟩ := by
  have world : (reviewer.begun context review state).world = state.world :=
    Mutator.world_remarks _ context _
  exact sets.run (world ▸ notDone)

theorem leavesAsIs_of_settled (sets : Labels.Sets labels reviewer.logic) {text : Bytes}
    (created : (reviewer.creator.newObject text).result = .ok object)
    (settled : Labels.Settled labels object) : reviewer.LeavesAsIs text := by
  rintro context review state rfl notDone
  obtain ⟨after, ran⟩ := mutation_of_sets sets review object notDone
  refine mutate_eq_done_iff.2 ⟨object, _, created, by rw [ran], ?_⟩
  have same : object.toJson.same (Labels.label labels object).toJson = true := by
    rw [settled.same]
    exact Json.same_refl _
  rw [ran, mutatingResponse, Mutator.Run.final, Option.getD_none,
    Json.diff_eq_nil_of_same object.canonical_toJson (Object.canonical_toJson _) same,
    Labels.warnings_of_carries settled.carries]
  rfl

theorem admits_of_carries {checker : Reviewer (Validator τ)} {required : List String}
    (requires : Labels.Requires required checker.logic) {text : Bytes}
    (created : (checker.creator.newObject text).result = .ok object)
    (carries : (object.labels.getD ∅).Carries labels)
    (known : ∀ key ∈ required, labels.contains key = true) : checker.Admits text := by
  rintro context review state rfl notDone
  have world : (((checker.loggerOf .validating).report context .debug
      "webhook validating review request received" state).remarks context
        (checker.creator.newObject review.rawObject).remark.toList).world = state.world :=
    Mutator.world_remarks _ context _
  obtain ⟨after, ran⟩ := requires.run review (world ▸ notDone)
    (Labels.missing_of_carries carries known)
  simp only [validate, created, ran]

/-- The text of an object holds the object with its numbers re-read, unless it nests too deep for
JSON. -/
theorem holds_of_depth (root : object.toJson.isObject = true)
    (fits : object.toJson.depth ≤ Json.nestingLimit) :
    Holds (utf8Bytes object.toJson.render) object.toTree.reread := by
  have tree_eq : .ofJson object.toJson.reread = object.toTree.reread :=
    Json.Tree.ext_json (Json.Tree.json_ofJson object.canonical_toJson.reread)
  have raw_eq : rawBytes (some object.toJson) = utf8Bytes object.toJson.render :=
    rawBytes_of_ne_null fun null => by simp [null, Json.isObject] at root
  exact tree_eq ▸ raw_eq ▸ decodeRaw_eq_ok_iff.1 (decodeRaw_rawBytes root fits)

theorem depth_of_holds {raw : Bytes} {tree : Json.Tree} (holds : Holds raw tree)
    (shallow : ∃ tree, Json.parse raw = .ok tree ∨ Holds raw tree ∧ tree.json.depth ≤ Json.nestingLimit) :
    tree.json.depth ≤ Json.nestingLimit := by
  have only {other : Json.Tree} (also : Holds raw other) : other = tree :=
    Except.ok.inj ((decodeRaw_eq_ok_iff.2 also).symm.trans (decodeRaw_eq_ok_iff.2 holds))
  obtain ⟨other, parsed | ⟨also, fits⟩⟩ := shallow
  · have nonempty : raw ≠ [] := by cases holds <;> assumption
    rw [← only (.json nonempty parsed)]
    exact Json.depth_of_value _ (Json.value_of_parse parsed)
  · exact only also ▸ fits

/-- A webhook labels whatever object comes into being from a text. The text of the labelled object
holds that object with its numbers re-read, those that are no integers being estimated, if the first
text was JSON or if what it held did not nest too deep for JSON. Where it holds the object, with
whichever numbers re-read, the webhook leaves it as it is, of a type or generic, and any webhook that
requires only labels that were set lets it pass. -/
theorem relabelling_changes_nothing (sets : Labels.Sets labels reviewer.logic)
    (dynamic : reviewer.creator = .dynamic registry) (notDone : context.isDone state.world = false)
    (created : (reviewer.creator.newObject review.rawObject).result = .ok object) :
    ∃ mutation, (reviewer.mutation context review object state).outcome = .done mutation ∧
      let final := (reviewer.mutation context review object state).final mutation
      let text := utf8Bytes final.toJson.render
      ((∃ tree, Json.parse review.rawObject = .ok tree ∨
        Holds review.rawObject tree ∧ tree.json.depth ≤ Json.nestingLimit) →
          Holds text final.toTree.reread) ∧
      ∀ again, Holds text again → final.toJson.Rereads again.json → reviewer.LeavesAsIs text ∧
        ∀ (τ : Type) (checker : Reviewer (Validator τ)) (other : Registry) (required : List String),
          Labels.Requires required checker.logic → checker.creator = .dynamic other →
          (∀ key ∈ required, labels.contains key = true) → checker.Admits text := by
  obtain ⟨after, ran⟩ := mutation_of_sets sets review object notDone
  refine ⟨_, by rw [ran], ?_⟩
  simp only [ran, Mutator.Run.final, Option.getD_none]
  obtain ⟨tree, holds⟩ : ∃ tree, Holds review.rawObject tree := by
    cases held : decodeRaw review.rawObject with
    | error error => rw [Creator.newObject_of_error _ held] at created; cases created
    | ok tree => exact ⟨tree, decodeRaw_eq_ok_iff.1 held⟩
  rw [Creator.newObject_of_holds _ holds, dynamic] at created
  have root : (Labels.label labels object).toJson.isObject = true := Labels.isObject_label created
  refine ⟨fun shallow => holds_of_depth root
    (Labels.depth_label created (depth_of_holds holds shallow)), fun again held rereads => ?_⟩
  rw [← rereads.isObject_eq] at root
  -- numbers decide neither the type of an object nor its labels, so that these come back
  obtain ⟨carried, settled⟩ := Labels.settled created rereads
  constructor
  · obtain ⟨second, remade⟩ := Creator.exists_ofTree registry root
    refine leavesAsIs_of_settled sets ?_ (settled second remade)
    rw [Creator.newObject_of_holds _ held, dynamic, remade]
  · intro τ checker other required requires checks known
    obtain ⟨second, remade⟩ := Creator.exists_ofTree other root
    refine admits_of_carries requires ?_ (carried other second remade) known
    rw [Creator.newObject_of_holds _ held, checks, remade]

/-- A webhook that sets one label, and knows pods and no other type. -/
def teamSetter : Reviewer (Mutator Unit) where
  id := "teams"
  logic := .chain .silent [Labels.mutator (SortedMap.insert ∅ "team" "x")]
  creator := .dynamic (.build [.register .pod])
  logger := .silent

/-- A webhook that requires the label, and knows no type. -/
def teamChecker : Reviewer (Validator Unit) where
  id := "teams"
  logic := Labels.validator ["team"]
  creator := .dynamic .empty
  logger := .silent

def creationOf (raw : Bytes) : Review :=
  { (default : Review) with newObject := raw }

@[simp]
theorem rawObject_creationOf (raw : Bytes) : (creationOf raw).rawObject = raw :=
  rfl

def unhurried : Context :=
  { signal := ⟨0, none⟩ }

def outset : State Unit :=
  ⟨⟨0, 1, [], ()⟩, {}⟩

/-- A pod without labels gets the label. Its text holds a pod for the one webhook and a generic object
for the other, and both find the label there. -/
theorem relabelling_changes_nothing_barePod : ∃ (pod : Typed) (mutation : Mutation),
    let review := creationOf (rawBytes (some Creator.barePod))
    let ran := teamSetter.mutation unhurried review (.typed pod) outset
    let text := utf8Bytes (ran.final mutation).toJson.render
    (teamSetter.creator.newObject review.rawObject).result = .ok (.typed pod) ∧
    pod.metadata.labels = none ∧ ran.outcome = .done mutation ∧
    teamSetter.LeavesAsIs text ∧ teamChecker.Admits text := by
  have parsed : Json.parse (rawBytes (some Creator.barePod)) = .ok (.ofJson Creator.barePod) :=
    Json.parseWithin_render Creator.barePod (by decide)
  have holds : Holds (rawBytes (some Creator.barePod)) (.ofJson Creator.barePod) :=
    decodeRaw_eq_ok_iff.1 (decodeRaw_rawBytes rfl (by decide))
  have named : GroupVersionKind.ofObject? Creator.barePod = some ⟨"", "v1", "Pod"⟩ := by
    decide +kernel
  have declared := GroupVersionKind.ofObject?_eq_some_iff.1 named
  obtain ⟨pod, decoded, unlabelled⟩ : ∃ pod, Typed.decode .pod Creator.barePod = .ok pod ∧
      pod.metadata.labels = none := ⟨_, rfl, rfl⟩
  have created : (teamSetter.creator.newObject
      (creationOf (rawBytes (some Creator.barePod))).rawObject).result = .ok (.typed pod) := by
    refine (congrArg Creation.result (Creator.newObject_of_holds _ holds)).trans ?_
    exact Creator.ofTree_of_decodes ⟨⟨_, .register .pod, declared, rfl, rfl⟩, decoded⟩
  have sets : Labels.Sets (SortedMap.insert ∅ "team" "x") teamSetter.logic := .chained .silent
  have notDone : unhurried.isDone outset.world = false := rfl
  obtain ⟨mutation, mutated, readable, settles⟩ :=
    relabelling_changes_nothing sets rfl notDone created
  obtain ⟨leaves, checked⟩ := settles _ (readable ⟨_, .inl parsed⟩) (Json.rereads_reread _)
  have checks : teamChecker.Admits _ := checked Unit teamChecker .empty ["team"] .alone rfl (by decide)
  exact ⟨pod, mutation, created, unlabelled, mutated, leaves, checks⟩

/-- A text in which the character is that JSON prints and YAML does not allow is no YAML. -/
theorem yaml_eq_none {text : String} (mem : 0x7f ∈ utf8Bytes text) :
    Yaml.parse (utf8Bytes text) = none := by
  have forbidden : text.toList.all Yaml.isAllowed = false := by
    rw [Text.utf8Bytes_eq, List.mem_flatMap] at mem
    obtain ⟨c, inText, mem⟩ := mem
    have ascii : c.toNat < 128 := by
      refine Nat.lt_of_not_le fun high => ?_
      exact absurd (Text.le_of_mem_utf8EncodeChar high mem) (by decide)
    rw [Text.utf8EncodeChar_of_ascii ascii, List.mem_singleton] at mem
    have code : c.toNat = 127 := by
      have same := congrArg UInt8.toNat mem
      rw [UInt8.toNat_ofNat_of_lt' (Nat.lt_trans ascii (by decide))] at same
      exact same.symm
    exact List.all_eq_false.2 ⟨c, inText, by simp [Yaml.isAllowed, code]⟩
  rw [Yaml.parse, Text.ofUtf8?_utf8Bytes, Option.bind_some, Yaml.tokens?, forbidden]
  rfl

def listed (depth : Nat) (value : Json) : Json :=
  match depth with
  | 0 => value
  | depth + 1 => .array [listed depth value]

theorem integral_listed (depth : Nat) (text : String) : (listed depth (.string text)).Integral := by
  induction depth with
  | zero => exact .string text
  | succ depth ih => exact .array (List.forall_mem_singleton.2 ih)

theorem canonical_listed (depth : Nat) (text : String) : (listed depth (.string text)).Canonical := by
  induction depth with
  | zero => exact .string text
  | succ depth ih => exact .array (List.forall_mem_singleton.2 ih)

/-- What YAML can hold and JSON cannot: it nests one bracket deeper than JSON may. -/
def deep : Json.Tree where
  json := .object [("a", listed 127 (.string "\x7f"))]
  canonical := .object (List.pairwise_singleton _ _)
    (List.forall_mem_singleton.2 (canonical_listed 127 "\x7f"))

/-- Its text, in which YAML has a number for the character that it does not allow. -/
def deepText : List Char :=
  "\x7b\"a\":".toList ++ List.replicate 127 '[' ++ "\"\\x7f\"".toList ++ List.replicate 127 ']'
    ++ ['\x7d']

def deepRaw : Bytes :=
  utf8Bytes (String.ofList deepText)

def deepLabelled : Json :=
  .object [("a", listed 127 (.string "\x7f")),
    ("metadata", .object [("labels", .object [("team", .string "x")])])]

theorem exists_error {raw : Bytes} (unparsed : (Json.parse raw).isOk = false) :
    ∃ error, Json.parse raw = .error error := by
  cases read : Json.parse raw with
  | ok value => rw [read] at unparsed; cases unparsed
  | error error => exact ⟨error, rfl⟩

theorem holds_deep : Holds deepRaw deep := by
  have ascii : deepText.all (fun c => decide (c.toNat < 128)) = true := by decide +kernel
  have notJson : (Json.parse deepRaw).isOk = false := by
    rw [deepRaw, Text.utf8Bytes_of_ascii fun c mem => of_decide_eq_true (List.all_eq_true.1 ascii c mem)]
    decide +kernel
  obtain ⟨error, unparsed⟩ := exists_error notJson
  have parsed : (Yaml.parse deepRaw).map (·.json.same deep.json) = some true := by
    rw [deepRaw, Yaml.parse, Text.ofUtf8?_utf8Bytes, Option.bind_some, String.toList_ofList]
    decide +kernel
  obtain ⟨tree, parsed, same⟩ := Option.map_eq_some_iff.1 parsed
  have integral : deep.json.Integral :=
    .object (List.forall_mem_singleton.2 (integral_listed 127 "\x7f"))
  obtain rfl : tree = deep := Json.Tree.ext_json (integral.eq_of_same same)
  exact .yaml (by decide +kernel) unparsed parsed

theorem label_deep : (Labels.label (SortedMap.insert ∅ "team" "x")
    (.generic (.ofTree deep))).toJson = deepLabelled := by
  rfl

theorem fails_deepLabelled (creator : Creator) : ∃ error,
    (creator.newObject (utf8Bytes deepLabelled.render)).result = .error error := by
  have notJson : (Json.parse (utf8Bytes deepLabelled.render)).isOk = false := by
    rw [Json.utf8Bytes_render]
    decide +kernel
  have notYaml : Yaml.parse (utf8Bytes deepLabelled.render) = none := yaml_eq_none (by
    rw [Json.utf8Bytes_render]
    decide +kernel)
  obtain ⟨_, unparsed⟩ := exists_error notJson
  obtain ⟨error, failed⟩ : ∃ error, decodeRaw (utf8Bytes deepLabelled.render) = .error error := by
    rw [decodeRaw, unparsed, notYaml]
    split
    · exact ⟨_, rfl⟩
    · exact ⟨_, rfl⟩
  exact ⟨error, Creator.newObject_of_error creator failed⟩

/-- An object that YAML can hold gets the label, but JSON cannot hold what it then is: neither the
webhook that labelled it nor the one that requires the label can review it. -/
theorem relabelling_fails_deep : ∃ mutation : Mutation,
    let review := creationOf deepRaw
    let object := Object.generic (.ofTree deep)
    let ran := teamSetter.mutation unhurried review object outset
    let text := utf8Bytes (ran.final mutation).toJson.render
    (teamSetter.creator.newObject review.rawObject).result = .ok object ∧
    ran.outcome = .done mutation ∧ ¬ teamSetter.LeavesAsIs text ∧ ¬ teamChecker.Admits text := by
  have created : (teamSetter.creator.newObject (creationOf deepRaw).rawObject).result =
      .ok (.generic (.ofTree deep)) := by
    rw [rawObject_creationOf, Creator.newObject_of_holds _ holds_deep]
    rfl
  have sets : Labels.Sets (SortedMap.insert ∅ "team" "x") teamSetter.logic := .chained .silent
  have notDone : unhurried.isDone outset.world = false := rfl
  obtain ⟨after, ran⟩ := mutation_of_sets sets (creationOf deepRaw) (.generic (.ofTree deep)) notDone
  refine ⟨_, created, by rw [ran], ?_⟩
  rw [ran, Mutator.Run.final, Option.getD_none, label_deep]
  constructor
  · intro leaves
    obtain ⟨error, failed⟩ := fails_deepLabelled teamSetter.creator
    have answered := leaves unhurried (creationOf _) outset (rawObject_creationOf _) notDone
    obtain ⟨object, -, made, -⟩ := mutate_eq_done_iff.1 answered
    rw [rawObject_creationOf, failed] at made
    cases made
  · intro admits
    obtain ⟨error, failed⟩ := fails_deepLabelled teamChecker.creator
    have answered := admits unhurried (creationOf _) outset (rawObject_creationOf _) notDone
    rw [validate, rawObject_creationOf, failed] at answered
    cases answered

end Reviewer

end Admission
