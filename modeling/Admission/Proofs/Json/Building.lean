import Admission.Proofs.Json.Scanning

/-! The tree of a text of the grammar: nodes that are read like what the text says. -/

set_option autoImplicit false

namespace Admission.Json

theorem agree_orFault {α : Type} (result : Except Fault α) :
    Agree result (orFault result.toOption) := by
  cases result with
  | ok a => exact .ok a
  | error fault => exact .error fault _

def TokensOf (scanned : List Token) (marks : List Mark) : Prop :=
  scanned.map (fun token => token.word.mark?) = marks.map some

theorem TokensOf.cons {scanned : List Token} {mark : Mark} {marks : List Mark}
    (tokens : TokensOf scanned (mark :: marks)) : ∃ token others, scanned = token :: others ∧
      token.word.mark? = some mark ∧ TokensOf others marks :=
  List.map_eq_cons_iff.1 tokens

theorem TokensOf.nil {scanned : List Token} (tokens : TokensOf scanned []) : scanned = [] :=
  List.map_eq_nil_iff.1 tokens

theorem TokensOf.append {scanned : List Token} {marks more : List Mark}
    (tokens : TokensOf scanned (marks ++ more)) : ∃ first others, scanned = first ++ others ∧
      TokensOf first marks ∧ TokensOf others more := by
  rw [TokensOf, List.map_append] at tokens
  exact List.map_eq_append_iff.1 tokens

theorem Word.scalar_of_mark {word : Word} {atom : Atom} (means : word.mark? = some (.atom atom)) :
    ∃ scalar, word.scalar? = some scalar ∧ scalar.Alike atom.scalar := by
  cases word with
  | null =>
    cases means
    exact ⟨.null, rfl, .null⟩
  | bool value =>
    cases means
    exact ⟨.bool value, rfl, .bool value⟩
  | number value =>
    cases means
    exact ⟨.number value, rfl, .number (agree_orFault value)⟩
  | string value =>
    cases means
    exact ⟨.string value, rfl, .string (agree_orFault value)⟩
  | _ => cases means

theorem Word.string_of_mark {word : Word} {text : Option String}
    (means : word.mark? = some (.atom (.string text))) :
    ∃ value, word = .string value ∧ Agree value (orFault text) := by
  cases word with
  | string value =>
    cases means
    exact ⟨value, rfl, agree_orFault value⟩
  | _ => cases means

def Mark.word? : Mark → Option Word
  | .openArray => some .openArray
  | .closeArray => some .closeArray
  | .openObject => some .openObject
  | .closeObject => some .closeObject
  | .comma => some .comma
  | .colon => some .colon
  | .atom _ => none

theorem Word.eq_of_mark {word other : Word} {mark : Mark} (means : word.mark? = some mark)
    (bare : mark.word? = some other) : word = other := by
  cases word <;> cases means <;> cases bare <;> rfl

theorem TokensOf.cons_bare {scanned : List Token} {mark : Mark} {marks : List Mark} {word : Word}
    (tokens : TokensOf scanned (mark :: marks)) (bare : mark.word? = some word) :
    ∃ start stop others, scanned = ⟨start, stop, word⟩ :: others ∧ TokensOf others marks := by
  obtain ⟨⟨start, stop, found⟩, others, rfl, means, rest⟩ := tokens.cons
  obtain rfl : found = word := Word.eq_of_mark means bare
  exact ⟨start, stop, others, rfl, rest⟩

/-- A complete node is the root, or goes into the innermost bracket. -/
def settle (rest : List Token) (node : Node) (under : Option Key) (levels : List Level) : Document :=
  match levels with
  | [] =>
    match rest with
    | [] | ⟨_, _, .finish⟩ :: _ => ⟨node, none⟩
    | next :: _ => ⟨node, some ⟨.trailingCharacters, next.ahead⟩⟩
  | level :: levels => build rest .separator (⟨level.frame.add under node, level.under⟩ :: levels)

def Expectation.under? : Expectation → Option (Option Key)
  | .value | .firstItem | .item => some none
  | .memberValue name => some (some name)
  | _ => none

theorem build_scalar {token : Token} {scalar : Scalar} {expected : Expectation}
    {under : Option Key} (word : token.word.scalar? = some scalar)
    (reads : expected.under? = some under) (rest : List Token) (levels : List Level) :
    build (token :: rest) expected levels =
      settle rest (.scalar scalar token.start token.stop) under levels := by
  obtain ⟨start, stop, found⟩ := token
  cases expected with
  | value | firstItem | item | memberValue =>
    cases reads
    cases found with
    | null | bool | number | string =>
      cases word
      rfl
    | _ => cases word
  | _ => cases reads

theorem build_openArray {token : Token} {expected : Expectation} {under : Option Key}
    (word : token.word = .openArray) (reads : expected.under? = some under) (rest : List Token)
    (levels : List Level) : build (token :: rest) expected levels =
      build rest .firstItem (⟨.array token.start (abandonedList rest) [], under⟩ :: levels) := by
  obtain ⟨start, stop, word⟩ := token
  subst word
  cases expected with
  | value | firstItem | item | memberValue =>
    cases reads
    rfl
  | _ => cases reads

theorem build_openObject {token : Token} {expected : Expectation} {under : Option Key}
    (word : token.word = .openObject) (reads : expected.under? = some under) (rest : List Token)
    (levels : List Level) : build (token :: rest) expected levels =
      build rest .firstKey (⟨.object token.start [], under⟩ :: levels) := by
  obtain ⟨start, stop, word⟩ := token
  subst word
  cases expected with
  | value | firstItem | item | memberValue =>
    cases reads
    rfl
  | _ => cases reads

/-- The words of an outline are built into a node that is read like it. -/
def Builds (outline : Outline) : Prop :=
  ∀ (scanned : List Token), TokensOf scanned outline.marks →
    ∀ (rest : List Token) (expected : Expectation) (under : Option Key) (levels : List Level),
    expected.under? = some under → ∃ node : Node, node.Alike outline.node ∧
      build (scanned ++ rest) expected levels = settle rest node under levels

theorem builds_atom (atom : Atom) : Builds (.atom atom) := by
  intro scanned tokens rest expected under levels reads
  obtain ⟨token, others, rfl, means, behind⟩ := tokens.cons
  obtain ⟨scalar, word, alike⟩ := Word.scalar_of_mark means
  rw [behind.nil]
  exact ⟨_, .scalar alike .., build_scalar word reads rest levels⟩

theorem build_items {items : List Outline} (builds : ∀ item ∈ items, Builds item)
    {scanned : List Token} (tokens : TokensOf scanned (itemsMarks items))
    (rest : List Token) (start abandoned : Nat) (read : List Node) (under : Option Key)
    (levels : List Level) : ∃ nodes stop, List.Forall₂ Node.Alike nodes (itemNodes items) ∧
      build (scanned ++ rest) .separator (⟨.array start abandoned read, under⟩ :: levels) =
        settle rest (.array start abandoned (read.reverse ++ nodes) (.closed stop)) under
          levels := by
  induction items generalizing scanned read with
  | nil =>
    obtain ⟨_, stop, others, rfl, behind⟩ := tokens.cons_bare rfl
    rw [behind.nil]
    refine ⟨[], stop, .nil, ?_⟩
    rw [List.append_nil]
    rfl
  | cons item items ih =>
    rw [List.forall_mem_cons] at builds
    obtain ⟨_, _, behind, rfl, behind_tokens⟩ := tokens.cons_bare rfl
    obtain ⟨first, others, rfl, first_tokens, others_tokens⟩ := behind_tokens.append
    obtain ⟨node, alike, node_eq⟩ := builds.1 first first_tokens (others ++ rest) .item none
      (⟨.array start abandoned read, under⟩ :: levels) rfl
    obtain ⟨nodes, stop, all, nodes_eq⟩ := ih builds.2 others_tokens (node :: read)
    refine ⟨node :: nodes, stop, .cons alike all, ?_⟩
    rw [List.reverse_cons, List.append_assoc, List.singleton_append] at nodes_eq
    rw [List.cons_append, List.append_assoc]
    exact node_eq.trans nodes_eq

theorem build_key {expected : Expectation} (reads : expected = .firstKey ∨ expected = .key)
    {scanned : List Token} {name : Option String} {more : List Mark}
    (tokens : TokensOf scanned (.atom (.string name) :: .colon :: more)) (rest : List Token)
    (levels : List Level) : ∃ (key : Key) (others : List Token), Agree key.text (orFault name) ∧
      TokensOf others more ∧
      build (scanned ++ rest) expected levels = build (others ++ rest) (.memberValue key) levels := by
  obtain ⟨⟨_, stop, word⟩, behind, rfl, means, behind_tokens⟩ := tokens.cons
  obtain ⟨text, eq, agree⟩ := Word.string_of_mark means
  obtain rfl : word = .string text := eq
  obtain ⟨start, stop', others, rfl, others_tokens⟩ := behind_tokens.cons_bare rfl
  refine ⟨⟨text, stop, abandonedObject ⟨start, stop', .colon⟩⟩, others, agree, others_tokens, ?_⟩
  rcases reads with rfl | rfl <;> rfl

theorem build_members {members : List (Option String × Outline)}
    (builds : ∀ member ∈ members, Builds member.2)
    {scanned : List Token} (tokens : TokensOf scanned (membersMarks members))
    (rest : List Token) (start : Nat) (read : List (Key × Node)) (under : Option Key)
    (levels : List Level) : ∃ nodes stop, List.Forall₂ MembersAlike nodes (memberNodes members) ∧
      build (scanned ++ rest) .separator (⟨.object start read, under⟩ :: levels) =
        settle rest (.object start (read.reverse ++ nodes) (.closed stop)) under levels := by
  induction members generalizing scanned read with
  | nil =>
    obtain ⟨_, stop, others, rfl, behind⟩ := tokens.cons_bare rfl
    rw [behind.nil]
    refine ⟨[], stop, .nil, ?_⟩
    rw [List.append_nil]
    rfl
  | cons member members ih =>
    rw [List.forall_mem_cons] at builds
    obtain ⟨_, _, behind, rfl, behind_tokens⟩ := tokens.cons_bare rfl
    obtain ⟨key, behind, text, member_tokens, key_eq⟩ := build_key (.inr rfl) behind_tokens rest
      (⟨.object start read, under⟩ :: levels)
    obtain ⟨value, others, rfl, value_tokens, others_tokens⟩ := member_tokens.append
    obtain ⟨node, alike, node_eq⟩ := builds.1 value value_tokens (others ++ rest) (.memberValue key)
      (some key) (⟨.object start read, under⟩ :: levels) rfl
    obtain ⟨nodes, stop, all, nodes_eq⟩ := ih builds.2 others_tokens ((key, node) :: read)
    refine ⟨(key, node) :: nodes, stop, .cons ⟨text, alike⟩ all, ?_⟩
    rw [List.reverse_cons, List.append_assoc, List.singleton_append] at nodes_eq
    rw [List.append_assoc] at key_eq
    exact (key_eq.trans node_eq).trans nodes_eq

theorem builds_array {items : List Outline} (builds : ∀ item ∈ items, Builds item) :
    Builds (.array items) := by
  intro scanned tokens rest expected under levels reads
  cases items with
  | nil =>
    obtain ⟨start, _, behind, rfl, behind_tokens⟩ := tokens.cons_bare rfl
    obtain ⟨_, stop, others, rfl, none_left⟩ := behind_tokens.cons_bare rfl
    rw [none_left.nil, List.cons_append, build_openArray rfl reads]
    exact ⟨_, .array .nil (.closed stop 0) start 0 stop 0, rfl⟩
  | cons item items =>
    -- the first item stands right behind the bracket, every other one behind a comma
    rw [List.forall_mem_cons] at builds
    obtain ⟨start, _, behind, rfl, behind_tokens⟩ := tokens.cons_bare rfl
    obtain ⟨first, others, rfl, first_tokens, others_tokens⟩ := behind_tokens.append
    rw [List.cons_append, build_openArray rfl reads, List.append_assoc]
    generalize abandonedList (first ++ (others ++ rest)) = abandoned
    obtain ⟨node, alike, node_eq⟩ := builds.1 first first_tokens (others ++ rest) .firstItem none
      (⟨.array start abandoned [], under⟩ :: levels) rfl
    obtain ⟨nodes, stop, all, nodes_eq⟩ := build_items builds.2 others_tokens rest start abandoned
      [node] under levels
    exact ⟨_, .array (.cons alike all) (.closed stop 0) start 0 abandoned 0, node_eq.trans nodes_eq⟩

theorem builds_object {members : List (Option String × Outline)}
    (builds : ∀ member ∈ members, Builds member.2) : Builds (.object members) := by
  intro scanned tokens rest expected under levels reads
  cases members with
  | nil =>
    obtain ⟨start, _, behind, rfl, behind_tokens⟩ := tokens.cons_bare rfl
    obtain ⟨_, stop, others, rfl, none_left⟩ := behind_tokens.cons_bare rfl
    rw [none_left.nil, List.cons_append, build_openObject rfl reads]
    exact ⟨_, .object .nil (.closed stop 0) start 0, rfl⟩
  | cons member members =>
    -- the first key stands right behind the bracket, every other one behind a comma
    rw [List.forall_mem_cons] at builds
    obtain ⟨start, _, behind, rfl, behind_tokens⟩ := tokens.cons_bare rfl
    rw [List.cons_append, build_openObject rfl reads]
    obtain ⟨key, behind, text, member_tokens, key_eq⟩ := build_key (.inl rfl) behind_tokens rest
      (⟨.object start [], under⟩ :: levels)
    obtain ⟨value, others, rfl, value_tokens, others_tokens⟩ := member_tokens.append
    obtain ⟨node, alike, node_eq⟩ := builds.1 value value_tokens (others ++ rest) (.memberValue key)
      (some key) (⟨.object start [], under⟩ :: levels) rfl
    obtain ⟨nodes, stop, all, nodes_eq⟩ := build_members builds.2 others_tokens rest start
      [(key, node)] under levels
    rw [List.append_assoc] at key_eq
    exact ⟨_, .object (.cons ⟨text, alike⟩ all) (.closed stop 0) start 0,
      (key_eq.trans node_eq).trans nodes_eq⟩

theorem builds (outline : Outline) : Builds outline := by
  induction outline with
  | atom atom => exact builds_atom atom
  | array items ih => exact builds_array ih
  | object members ih => exact builds_object ih

/-- The tree of a text is read like what the text says, and nothing stands behind it. -/
theorem document_spelled {outline : Outline} {bytes : List UInt8} (spelled : outline.SpelledBy bytes) :
    ∃ node : Node, node.Alike outline.node ∧ document bytes = ⟨node, none⟩ := by
  obtain ⟨scanned, stop, means, tokens_eq⟩ := exists_tokens spelled
  obtain ⟨node, alike, node_eq⟩ :=
    builds outline scanned means [⟨stop, stop, .finish⟩] .value none [] rfl
  -- the root is settled when only the end of the text is left
  refine ⟨node, alike, ?_⟩
  rw [document, tokens_eq, node_eq]
  rfl

end Admission.Json
