import Admission.Proofs.Json.Breaking
import Admission.Proofs.Json.Reading

/-! Every text that some reader accepts is a text of the grammar. -/

set_option autoImplicit false

namespace Admission.Json

def Ending.IsClosed (ending : Ending) : Prop :=
  ∃ stop, ending = .closed stop

theorem closed_of_check {ending : Ending} {stop : Nat} (check : ending.check = .ok stop) :
    ending.IsClosed := by
  cases ending with
  | closed stop => exact ⟨stop, rfl⟩
  | broken fault => cases check

theorem closed_of_bind {α β : Type} {parts : Except Fault α} {ending : Ending} {f : α → Nat → β}
    {b : β} (read : (parts.bind fun a => ending.check.map (f a)) = .ok b) : ending.IsClosed := by
  obtain ⟨_, -, rest⟩ := bind_eq_ok read
  obtain ⟨_, check, -⟩ := map_eq_ok rest
  exact closed_of_check check

theorem closed_of_readPositions {items : List Node} {slots : List Slot} {short : Bool} {index : Nat}
    {expected : String} {room : Nat} {ending : Ending} {members : List (String × Json)}
    (read : readPositions items slots short index expected room ending = .ok members) :
    ending.IsClosed := by
  induction items generalizing slots index members with
  | nil =>
    cases slots with
    | nil =>
      rw [readPositions] at read
      obtain ⟨_, check, -⟩ := map_eq_ok read
      exact closed_of_check (mapError_eq_ok check)
    | cons slot slots =>
      rw [readPositions] at read
      obtain ⟨_, check, -⟩ := bind_eq_ok read
      exact closed_of_check check
  | cons item items ih =>
    cases slots with
    | nil => cases read
    | cons slot slots =>
      obtain ⟨name, presence, shape⟩ := slot
      rw [readPositions] at read
      split at read
      · exact ih read
      · split at read
        · obtain ⟨_, read, -⟩ := map_eq_ok read
          exact ih read
        · cases read

theorem break?_of_value {node : Node} {room : Nat} {tree : Tree}
    (read : node.value room = .ok tree) : node.break? = none := by
  cases node with
  | scalar => rfl
  | broken => cases read
  | array start abandoned items ending =>
    cases room with
    | zero => cases read
    | succ room =>
      obtain ⟨_, values, -⟩ := map_eq_ok read
      rw [itemValues_eq] at values
      obtain ⟨stop, rfl⟩ := closed_of_bind values
      rfl
  | object start members ending =>
    cases room with
    | zero => cases read
    | succ room =>
      obtain ⟨_, values, -⟩ := map_eq_ok read
      rw [memberValues_eq] at values
      obtain ⟨stop, rfl⟩ := closed_of_bind values
      rfl

/-- No reader accepts a node that breaks off: each of them asks how its bracket ends. -/
theorem break?_of_read {node : Node} {shape : Shape} {room : Nat} {json : Json}
    (read : node.read shape room = .ok json) : node.break? = none := by
  cases node with
  | scalar => rfl
  | broken =>
    cases shape with
    | record name form => cases form <;> cases read
    | _ => cases read
  | array start abandoned items ending =>
    cases shape with
    | any =>
      obtain ⟨_, value, -⟩ := map_eq_ok read
      exact break?_of_value value
    | list item =>
      cases room with
      | zero => cases read
      | succ room =>
        obtain ⟨_, values, -⟩ := map_eq_ok read
        rw [readItems_eq] at values
        obtain ⟨stop, rfl⟩ := closed_of_bind values
        rfl
    | record name form slots =>
      cases form with
      | lenient => cases room <;> cases read
      | strict short =>
        cases room with
        | zero => cases read
        | succ room =>
          obtain ⟨_, values, -⟩ := map_eq_ok read
          obtain ⟨stop, rfl⟩ := closed_of_readPositions values
          rfl
    | _ => cases read
  | object start members ending =>
    cases shape with
    | any =>
      obtain ⟨_, value, -⟩ := map_eq_ok read
      exact break?_of_value value
    | map value =>
      cases room with
      | zero => cases read
      | succ room =>
        obtain ⟨_, values, -⟩ := map_eq_ok read
        rw [readEntries_eq] at values
        obtain ⟨stop, rfl⟩ := closed_of_bind values
        rfl
    | record name form slots =>
      cases room with
      | zero => cases form <;> cases read
      | succ room =>
        rw [read_object] at read
        obtain ⟨_, -, rest⟩ := bind_eq_ok read
        obtain ⟨_, check, -⟩ := bind_eq_ok rest
        obtain ⟨stop, rfl⟩ := closed_of_check check
        rfl
    | choice names =>
      -- a choice that is broken off is refused, whether it has no member, one or more
      cases ending with
      | closed stop => rfl
      | broken fault =>
        cases members with
        | nil => cases read
        | cons member members => cases members <;> cases read
    | _ => cases read

@[simp] theorem Frame.break?_close (frame : Frame) (fault : Break) :
    (frame.close (.broken fault)).break? = some fault := by
  cases frame <;> rfl

theorem break?_closeAll {fault : Break} {node : Node} (broken : node.break? = some fault)
    (under : Option Key) (levels : List Level) :
    (closeAll fault node under levels).break? = some fault := by
  induction levels generalizing node under with
  | nil => exact broken
  | cons level levels ih => exact ih (Frame.break?_close ..) level.under

@[simp] theorem break?_closeAll_broken (fault : Break) (start : Nat) (under : Option Key)
    (levels : List Level) :
    (closeAll fault (.broken start fault) under levels).break? = some fault :=
  break?_closeAll rfl under levels

@[simp] theorem break?_breakLevels (fault : Break) (start : Nat) (levels : List Level) :
    (breakLevels fault start levels).break? = some fault := by
  cases levels with
  | nil => rfl
  | cons level levels => exact break?_closeAll (Frame.break?_close ..) level.under levels

structure Document.Whole (document : Document) : Prop where
  root : document.root.break? = none
  trailing : document.trailing = none

/-- What one token does where the text does not break off at it. -/
inductive Step (rest : List Token) : Expectation → List Level → Mark → Document → Prop where
  | scalar {expected : Expectation} {under : Option Key} (reads : expected.under? = some under)
    (atom : Atom) (node : Node) (levels : List Level) :
    Step rest expected levels (.atom atom) (settle rest node under levels)
  | openArray {expected : Expectation} {under : Option Key} (reads : expected.under? = some under)
    (start abandoned : Nat) (levels : List Level) : Step rest expected levels .openArray
      (build rest .firstItem (⟨.array start abandoned [], under⟩ :: levels))
  | openObject {expected : Expectation} {under : Option Key} (reads : expected.under? = some under)
    (start : Nat) (levels : List Level) : Step rest expected levels .openObject
      (build rest .firstKey (⟨.object start [], under⟩ :: levels))
  | noItem (level : Level) (levels : List Level) (node : Node) :
    Step rest .firstItem (level :: levels) .closeArray (settle rest node level.under levels)
  | noMember (level : Level) (levels : List Level) (node : Node) :
    Step rest .firstKey (level :: levels) .closeObject (settle rest node level.under levels)
  | key {expected : Expectation} (reads : expected = .firstKey ∨ expected = .key)
    (name : Option String) (text : Except Fault String) (stop : Nat) (levels : List Level) :
    Step rest expected levels (.atom (.string name)) (build rest (.colon text stop) levels)
  | colon (text : Except Fault String) (stop : Nat) (key : Key) (levels : List Level) :
    Step rest (.colon text stop) levels .colon (build rest (.memberValue key) levels)
  | nextItem (start abandoned : Nat) (items : List Node) (under : Option Key)
    (levels : List Level) : Step rest .separator (⟨.array start abandoned items, under⟩ :: levels)
      .comma (build rest .item (⟨.array start abandoned items, under⟩ :: levels))
  | nextMember (start : Nat) (members : List (Key × Node)) (under : Option Key)
    (levels : List Level) : Step rest .separator (⟨.object start members, under⟩ :: levels)
      .comma (build rest .key (⟨.object start members, under⟩ :: levels))
  | closeArray (start abandoned : Nat) (items : List Node) (node : Node) (under : Option Key)
    (levels : List Level) : Step rest .separator (⟨.array start abandoned items, under⟩ :: levels)
      .closeArray (settle rest node under levels)
  | closeObject (start : Nat) (members : List (Key × Node)) (node : Node) (under : Option Key)
    (levels : List Level) : Step rest .separator (⟨.object start members, under⟩ :: levels)
      .closeObject (settle rest node under levels)

theorem Word.mark?_of_scalar {word : Word} {scalar : Scalar} (eq : word.scalar? = some scalar) :
    ∃ atom, word.mark? = some (.atom atom) := by
  cases word with
  | null | bool | number | string => exact ⟨_, rfl⟩
  | _ => cases eq

theorem step_of_value {token : Token} {rest : List Token} {expected : Expectation}
    {under : Option Key} {levels : List Level} (reads : expected.under? = some under)
    (noClose : expected = .firstItem → token.word ≠ .closeArray)
    (whole : (build (token :: rest) expected levels).Whole) : ∃ mark,
      token.word.mark? = some mark ∧
        Step rest expected levels mark (build (token :: rest) expected levels) := by
  cases scalar : token.word.scalar? with
  | some scalar =>
    obtain ⟨atom, means⟩ := Word.mark?_of_scalar ‹_›
    rw [build_scalar scalar reads]
    exact ⟨_, means, .scalar reads atom _ levels⟩
  | none =>
    cases word : token.word with
    | openArray =>
      rw [build_openArray word reads]
      exact ⟨_, rfl, .openArray reads _ _ levels⟩
    | openObject =>
      rw [build_openObject word reads]
      exact ⟨_, rfl, .openObject reads _ levels⟩
    | null | bool | number | string => simp [word, Word.scalar?] at scalar
    | _ =>
      have root := whole.root
      cases expected with
      | value | firstItem | item | memberValue => simp [build, word, Word.scalar?] at root noClose
      | _ => cases reads

theorem step_of_build {token : Token} {rest : List Token} {expected : Expectation}
    {levels : List Level} (whole : (build (token :: rest) expected levels).Whole) :
    ∃ mark, token.word.mark? = some mark ∧
      Step rest expected levels mark (build (token :: rest) expected levels) := by
  have root := whole.root
  -- a document that becomes whole breaks at no token, and that leaves few words for each expectation
  obtain ⟨start, stop, word⟩ := token
  cases expected with
  | value | item | memberValue => exact step_of_value rfl (by simp) whole
  | firstItem =>
    by_cases close : word = .closeArray
    · subst close
      cases levels with
      | nil => simp [build, Word.scalar?] at root
      | cons level levels => exact ⟨_, rfl, .noItem level levels _⟩
    · exact step_of_value rfl (fun _ => close) whole
  | firstKey =>
    cases word with
    | closeObject =>
      cases levels with
      | nil => simp [build] at root
      | cons level levels => exact ⟨_, rfl, .noMember level levels _⟩
    | string text => exact ⟨_, rfl, .key (.inl rfl) _ text stop levels⟩
    | _ => simp [build] at root
  | key =>
    cases word with
    | string text => exact ⟨_, rfl, .key (.inr rfl) _ text stop levels⟩
    | _ => simp [build] at root
  | colon text keyStop =>
    cases word with
    | colon => exact ⟨_, rfl, .colon text keyStop _ levels⟩
    | _ => simp [build] at root
  | separator =>
    cases levels with
    | nil => simp [build] at root
    | cons level levels =>
      obtain ⟨frame, under⟩ := level
      cases frame with
      | array opened abandoned items =>
        cases word with
        | comma => exact ⟨_, rfl, .nextItem opened abandoned items under levels⟩
        | closeArray => exact ⟨_, rfl, .closeArray opened abandoned items _ under levels⟩
        | _ => simp [build] at root
      | object opened members =>
        cases word with
        | comma => exact ⟨_, rfl, .nextMember opened members under levels⟩
        | closeObject => exact ⟨_, rfl, .closeObject opened members _ under levels⟩
        | _ => simp [build] at root

/-! ## What is still to come -/

inductive Bracket where
  | array
  | object

def Frame.bracket : Frame → Bracket
  | .array .. => .array
  | .object .. => .object

@[simp] theorem Frame.bracket_add (frame : Frame) (under : Option Key) (node : Node) :
    (frame.add under node).bracket = frame.bracket := by
  cases frame <;> cases under <;> rfl

/-- The brackets that are open, the innermost first. -/
def brackets (levels : List Level) : List Bracket :=
  levels.map (·.frame.bracket)

/-- What comes behind a node: the rest of every open bracket. -/
inductive Closes : List Bracket → List Mark → Prop where
  | nil : Closes [] []
  | array (items : List Outline) {opened : List Bracket} {marks : List Mark}
    (closes : Closes opened marks) : Closes (.array :: opened) (itemsMarks items ++ marks)
  | object (members : List (Option String × Outline)) {opened : List Bracket} {marks : List Mark}
    (closes : Closes opened marks) : Closes (.object :: opened) (membersMarks members ++ marks)

/-- What comes where something is expected: that, and the rest of every open bracket. -/
inductive Comes : Expectation → List Bracket → List Mark → Prop where
  | value {expected : Expectation} {under : Option Key} (reads : expected.under? = some under)
    (outline : Outline) {opened : List Bracket} {marks : List Mark} (closes : Closes opened marks) :
    Comes expected opened (outline.marks ++ marks)
  | noItem (bracket : Bracket) {opened : List Bracket} {marks : List Mark}
    (closes : Closes opened marks) : Comes .firstItem (bracket :: opened) (.closeArray :: marks)
  | noMember (bracket : Bracket) {opened : List Bracket} {marks : List Mark}
    (closes : Closes opened marks) : Comes .firstKey (bracket :: opened) (.closeObject :: marks)
  | key {expected : Expectation} (reads : expected = .firstKey ∨ expected = .key)
    (name : Option String) (outline : Outline) {opened : List Bracket} {marks : List Mark}
    (closes : Closes opened marks) :
    Comes expected opened (.atom (.string name) :: .colon :: (outline.marks ++ marks))
  | colon (text : Except Fault String) (stop : Nat) (outline : Outline) {opened : List Bracket}
    {marks : List Mark} (closes : Closes opened marks) :
    Comes (.colon text stop) opened (.colon :: (outline.marks ++ marks))
  | separator {opened : List Bracket} {marks : List Mark} (closes : Closes opened marks) :
    Comes .separator opened marks

section

variable {scanned : List Token} {marks : List Mark} {last : Token}

def ComesWhole (scanned : List Token) (marks : List Mark) (last : Token) : Prop :=
  ∀ expected levels, (build (scanned ++ [last]) expected levels).Whole →
    last.word = .finish ∧ Comes expected (brackets levels) marks

theorem closes_of_settle (tokens : TokensOf scanned marks) (comes : ComesWhole scanned marks last)
    {node : Node} {under : Option Key} {levels : List Level}
    (whole : (settle (scanned ++ [last]) node under levels).Whole) :
    last.word = .finish ∧ Closes (brackets levels) marks := by
  cases levels with
  | cons level levels =>
    obtain ⟨finish, comes⟩ := comes _ _ whole
    rw [brackets, List.map_cons, Frame.bracket_add] at comes
    cases comes with
    | value reads => cases reads
    | key reads => simp at reads
    | separator closes => exact ⟨finish, closes⟩
  | nil =>
    -- the root is complete: nothing but the end of the text may follow
    cases marks with
    | nil =>
      obtain ⟨start, stop, word⟩ := last
      rw [tokens.nil] at whole
      cases word with
      | finish => exact ⟨rfl, .nil⟩
      | _ => cases whole.trailing
    | cons mark marks =>
      obtain ⟨⟨start, stop, word⟩, others, rfl, means, -⟩ := tokens.cons
      cases word with
      | finish => cases means
      | _ => cases whole.trailing

/-- A step is one of the grammar if what it leaves to come does come. -/
theorem comes_of_step (tokens : TokensOf scanned marks) (comes : ComesWhole scanned marks last)
    {expected : Expectation} {levels : List Level} {mark : Mark} {document : Document}
    (step : Step (scanned ++ [last]) expected levels mark document) (whole : document.Whole) :
    last.word = .finish ∧ Comes expected (brackets levels) (mark :: marks) := by
  -- a bracket that the step opens takes what comes up to the one that closes it, so that all of it is one
  -- value; behind any other step comes what the document was left to expect
  cases step with
  | scalar reads atom =>
    exact (closes_of_settle tokens comes whole).imp_right (.value reads (.atom atom))
  | openArray reads =>
    refine (comes _ _ whole).imp_right fun comes => ?_
    cases comes with
    | noItem _ closes => exact .value reads (.array []) closes
    | key first => simp at first
    | value _ item closes =>
      cases closes with
      | array items closes =>
        have array := Comes.value reads (.array (item :: items)) closes
        rwa [Outline.marks, List.cons_append, List.append_assoc] at array
  | openObject reads =>
    refine (comes _ _ whole).imp_right fun comes => ?_
    cases comes with
    | noMember _ closes => exact .value reads (.object []) closes
    | value first => cases first
    | key _ name value closes =>
      cases closes with
      | object members closes =>
        have object := Comes.value reads (.object ((name, value) :: members)) closes
        rwa [Outline.marks, List.cons_append, List.cons_append, List.cons_append,
          List.append_assoc] at object
  | noItem level levels =>
    exact (closes_of_settle tokens comes whole).imp_right (.noItem level.frame.bracket)
  | noMember level levels =>
    exact (closes_of_settle tokens comes whole).imp_right (.noMember level.frame.bracket)
  | key reads name =>
    refine (comes _ _ whole).imp_right fun comes => ?_
    cases comes with
    | value first => cases first
    | key first => simp at first
    | colon _ _ value closes => exact .key reads name value closes
  | colon text stop =>
    refine (comes _ _ whole).imp_right fun comes => ?_
    cases comes with
    | value _ value closes => exact .colon text stop value closes
    | key first => simp at first
  | nextItem =>
    refine (comes _ _ whole).imp_right fun comes => ?_
    cases comes with
    | key first => simp at first
    | value _ item closes =>
      cases closes with
      | array items closes =>
        have more := Comes.separator (.array (item :: items) closes)
        rwa [itemsMarks, List.cons_append, List.append_assoc] at more
  | nextMember =>
    refine (comes _ _ whole).imp_right fun comes => ?_
    cases comes with
    | value first => cases first
    | key _ name value closes =>
      cases closes with
      | object members closes =>
        have more := Comes.separator (.object ((name, value) :: members) closes)
        rwa [membersMarks, List.cons_append, List.cons_append, List.cons_append,
          List.append_assoc] at more
  | closeArray =>
    exact (closes_of_settle tokens comes whole).imp_right fun closes =>
      .separator (.array [] closes)
  | closeObject =>
    exact (closes_of_settle tokens comes whole).imp_right fun closes =>
      .separator (.object [] closes)

theorem comesWhole (tokens : TokensOf scanned marks) (noMark : last.word.mark? = none) :
    ComesWhole scanned marks last := by
  induction scanned generalizing marks with
  | nil =>
    -- no step begins with the end of the text or with a break
    intro expected levels whole
    obtain ⟨mark, means, -⟩ := step_of_build whole
    cases noMark.symm.trans means
  | cons token scanned ih =>
    intro expected levels whole
    cases marks with
    | nil => cases tokens.nil
    | cons mark marks =>
      obtain ⟨_, _, eq, means, others⟩ := tokens.cons
      cases eq
      obtain ⟨other, means', step⟩ := step_of_build whole
      cases means.symm.trans means'
      exact comes_of_step others (ih others) step whole

end

theorem exists_spelled {bytes : List UInt8} (whole : (document bytes).Whole) :
    ∃ outline : Outline, outline.SpelledBy bytes := by
  obtain ⟨scanned, marks, last, eq, words, noMark, spells⟩ :=
    scanTokens_cases bytes.length bytes 0 [] (Nat.le_refl _)
  rw [document, tokens, eq, List.append_nil, List.reverse_cons, List.reverse_reverse] at whole
  obtain ⟨finish, comes⟩ := comesWhole words noMark _ _ whole
  cases comes with
  | key first => simp at first
  | value _ outline closes =>
    cases closes
    rw [List.append_nil] at spells
    exact ⟨outline, spells finish⟩

theorem trailing_of_readWith {α : Type} {document : Document} {read : Node → Except Fault α} {a : α}
    (eq : document.readWith read = .ok a) : document.trailing = none := by
  rw [Document.readWith, readWith_eq_ok eq] at eq
  cases trailing : document.trailing with
  | none => rfl
  | some fault =>
    rw [trailing] at eq
    cases eq

/-- Whatever the shape, a text that is read is a text of the grammar. -/
theorem spelled_of_parseAs {shape : Shape} {bytes : List UInt8} {json : Json}
    (parsed : parseAs shape bytes = .ok json) : ∃ outline : Outline, outline.SpelledBy bytes :=
  exists_spelled
    ⟨break?_of_read (read_of_parseAs parsed), trailing_of_readWith (mapError_eq_ok parsed)⟩

end Admission.Json
