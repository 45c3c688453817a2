import NotificationRelay.Yaml.Source

/-! Nodes written in flow style: from their tokens the same nodes are read. -/
namespace NotificationRelay.Yaml

mutual

def Node.tokens : Node → List Token
  | .scalar style none text => [.scalar style text]
  | .scalar style (some tag) text => [.tag "" tag, .scalar style text]
  | .sequence items => .flowSequence :: itemTokens true items
  | .mapping members => .flowMapping :: memberTokens true members
  | .alias anchor => [.alias (toString anchor)]

def itemTokens (first : Bool) : List Node → List Token
  | [] => [.flowSequenceEnd]
  | item :: rest => (if first then [] else [.flowEntry]) ++ item.tokens ++ itemTokens false rest

def memberTokens (first : Bool) : List (Node × Node) → List Token
  | [] => [.flowMappingEnd]
  | (key, value) :: rest =>
    (if first then [] else [.flowEntry]) ++ .key :: key.tokens ++ .value :: value.tokens ++
      memberTokens false rest

end

/-- Nodes in which there is no alias. -/
inductive Node.Plain : Node → Prop where
  | scalar (style : Style) (tag : Option String) (text : String) : Plain (.scalar style tag text)
  | sequence {items : List Node} (inside : ∀ item ∈ items, Plain item) : Plain (.sequence items)
  | mapping {members : List (Node × Node)} (keys : ∀ m ∈ members, Plain m.1)
      (values : ∀ m ∈ members, Plain m.2) : Plain (.mapping members)

namespace Reading

section

variable {c : Context} {t : Token} {rest : List Token}

theorem run_peek (c : Context) : peek.run c = some (c.tokens.head?, c) := rfl

theorem run_skip (c : Context) : skip.run c = some ((), { c with tokens := c.tokens.tail }) := rfl

theorem run_comes (t : Token) (c : Context) :
    (comes t).run c = some (decide (c.tokens.head? = some t), c) := rfl

theorem run_expect (next : c.tokens = t :: rest) :
    (expect t).run c = some ((), { c with tokens := rest }) := by
  have here : (comes t).run c = some (true, c) := by
    rw [run_comes, next]
    simp
  rw [expect, StateT.run_bind, here]
  change skip.run c = _
  rw [run_skip, next]
  rfl

theorem run_endsAt (tokens : List Token) (next : c.tokens = t :: rest) :
    (endsAt tokens).run c = some (tokens.contains t, c) := by
  rw [endsAt, StateT.run_bind, run_peek, next]
  rfl

end

/-- From its tokens the node is read, whatever stands behind them. -/
def Reads (node : Node) : Prop :=
  ∀ (block bare : Bool) (fuel : Nat) (c : Context) (rest : List Token),
    2 * node.tokens.length ≤ fuel → c.tokens = node.tokens ++ rest →
      (readNode block bare fuel).run c = some (node, { c with tokens := rest })

def starts : Token → Bool
  | .scalar .. | .tag .. | .flowSequence | .flowMapping => true
  | _ => false

theorem tokens_of_plain {node : Node} (plain : node.Plain) :
    ∃ t more, node.tokens = t :: more ∧ starts t := by
  cases plain with
  | scalar style tag text => cases tag <;> exact ⟨_, _, rfl, rfl⟩
  | sequence => exact ⟨_, _, rfl, rfl⟩
  | mapping => exact ⟨_, _, rfl, rfl⟩

theorem reads_scalar (style : Style) (tag : Option String) (text : String) :
    Reads (.scalar style tag text) := by
  intro block bare fuel c rest enough next
  obtain ⟨fuel, rfl⟩ : ∃ n, fuel = n + 1 := ⟨fuel - 1, by cases tag <;> simp [Node.tokens] at enough <;> omega⟩
  cases tag with
  | none =>
    rw [Node.tokens] at next
    simp [readNode, readProperties, StateT.run_bind, run_peek, run_skip, next, bindAnchor]
  | some tag =>
    rw [Node.tokens] at next
    simp [readNode, readProperties, StateT.run_bind, run_peek, run_skip, next, bindAnchor, fullTag]

section

variable {c middle last : Context} {t : Token} {more : List Token} {first : Bool} {fuel : Nat}

theorem ne_of_starts (opens : starts t) {indicator : Token} (stop : starts indicator = false) :
    t ≠ indicator := by
  rintro rfl
  rw [stop] at opens
  cases opens

/-- In front of an item stands a comma, unless it is the first one. -/
theorem run_readFlowItems {item : Node} {items : List Node} (opens : starts t)
    (next : c.tokens = (if first then [] else [.flowEntry]) ++ t :: more)
    (here : (readNode false false fuel).run { c with tokens := t :: more } = some (item, middle))
    (later : (readFlowItems false fuel).run middle = some (items, last)) :
    (readFlowItems first (fuel + 1)).run c = some (item :: items, last) := by
  have key : t ≠ .key := ne_of_starts opens rfl
  have ending : t ≠ .flowSequenceEnd := ne_of_starts opens rfl
  cases first with
  | true =>
    rw [if_pos rfl, List.nil_append] at next
    rw [← next] at here
    simp [readFlowItems, run_comes, next, key, ending, here, later]
  | false =>
    rw [if_neg Bool.false_ne_true] at next
    simp [readFlowItems, run_comes, run_expect next, next, key, ending, here, later]

theorem run_readNodeOr {ends : List Token} {block bare : Bool} {node : Node} (opens : starts t)
    (stops : ∀ indicator ∈ ends, starts indicator = false) (next : c.tokens = t :: more)
    (here : (readNode block bare fuel).run c = some (node, last)) :
    (readNodeOr ends block bare (fuel + 1)).run c = some (node, last) := by
  have inside : t ∉ ends := fun among => ne_of_starts opens (stops t among) rfl
  simp [readNodeOr, run_endsAt ends next, inside, here]

theorem run_readValue {ends : List Token} {block bare : Bool} {node : Node} (opens : starts t)
    (stops : ∀ indicator ∈ ends, starts indicator = false) (next : c.tokens = .value :: t :: more)
    (here : (readNode block bare fuel).run { c with tokens := t :: more } = some (node, last)) :
    (readValue ends block bare (fuel + 2)).run c = some (node, last) := by
  simp [readValue, run_comes, run_skip, next, run_readNodeOr opens stops rfl here]

theorem run_readFlowMembers {key value : Node} {members : List (Node × Node)}
    {after : Context} (next : c.tokens = (if first then [] else [.flowEntry]) ++ .key :: more)
    (keyed : (readNodeOr [.value, .flowEntry, .flowMappingEnd] false false fuel).run
      { c with tokens := more } = some (key, middle))
    (valued : (readValue [.flowEntry, .flowMappingEnd] false false fuel).run middle =
      some (value, after))
    (later : (readFlowMembers false fuel).run after = some (members, last)) :
    (readFlowMembers first (fuel + 1)).run c = some ((key, value) :: members, last) := by
  cases first with
  | true =>
    rw [if_pos rfl, List.nil_append] at next
    simp [readFlowMembers, run_comes, run_skip, next, keyed, valued, later]
  | false =>
    rw [if_neg Bool.false_ne_true] at next
    simp [readFlowMembers, run_comes, run_skip, run_expect next, next, keyed, valued, later]

end

theorem itemTokens_pos (first : Bool) (items : List Node) : 0 < (itemTokens first items).length := by
  cases items with
  | nil => exact Nat.one_pos
  | cons item items =>
    have := itemTokens_pos false items
    simp only [itemTokens, List.length_append]
    omega

theorem memberTokens_pos (first : Bool) (members : List (Node × Node)) :
    0 < (memberTokens first members).length := by
  cases members with
  | nil => exact Nat.one_pos
  | cons member members =>
    simp only [memberTokens, List.length_append, List.length_cons]
    omega

theorem readFlowItems_itemTokens {items : List Node} (plain : ∀ item ∈ items, item.Plain)
    (inside : ∀ item ∈ items, Reads item) (first : Bool) (fuel : Nat) (c : Context)
    (rest : List Token) (enough : 2 * (itemTokens first items).length ≤ fuel)
    (next : c.tokens = itemTokens first items ++ rest) :
    (readFlowItems first fuel).run c = some (items, { c with tokens := rest }) := by
  induction items generalizing first fuel c with
  | nil =>
    have left := itemTokens_pos first []
    obtain ⟨fuel, rfl⟩ : ∃ n, fuel = n + 1 := ⟨fuel - 1, by omega⟩
    rw [itemTokens] at next
    simp [readFlowItems, run_comes, next, run_skip]
  | cons item items ih =>
    obtain ⟨simple, others⟩ := List.forall_mem_cons.mp plain
    obtain ⟨here, later⟩ := List.forall_mem_cons.mp inside
    obtain ⟨t, more, spelled, opens⟩ := tokens_of_plain simple
    have left := itemTokens_pos false items
    have some : 0 < item.tokens.length := by simp [spelled]
    have parts : item.tokens.length + (itemTokens false items).length ≤
        (itemTokens first (item :: items)).length := by
      simp only [itemTokens, List.length_append]
      omega
    obtain ⟨fuel, rfl⟩ : ∃ n, fuel = n + 1 := ⟨fuel - 1, by omega⟩
    have read := here false false fuel
      { c with tokens := item.tokens ++ (itemTokens false items ++ rest) } _ (by omega) rfl
    rw [spelled, List.cons_append] at read
    refine run_readFlowItems opens ?_ read (ih others later false _ _ (by omega) rfl)
    rw [next, itemTokens, spelled]
    simp

theorem readFlowMembers_memberTokens {members : List (Node × Node)}
    (plain : ∀ m ∈ members, m.1.Plain ∧ m.2.Plain) (inside : ∀ m ∈ members, Reads m.1 ∧ Reads m.2)
    (first : Bool) (fuel : Nat) (c : Context) (rest : List Token)
    (enough : 2 * (memberTokens first members).length ≤ fuel)
    (next : c.tokens = memberTokens first members ++ rest) :
    (readFlowMembers first fuel).run c = some (members, { c with tokens := rest }) := by
  induction members generalizing first fuel c with
  | nil =>
    have left := memberTokens_pos first []
    obtain ⟨fuel, rfl⟩ : ∃ n, fuel = n + 1 := ⟨fuel - 1, by omega⟩
    rw [memberTokens] at next
    simp [readFlowMembers, run_comes, next, run_skip]
  | cons member members ih =>
    obtain ⟨key, value⟩ := member
    obtain ⟨⟨plainKey, plainValue⟩, others⟩ := List.forall_mem_cons.mp plain
    obtain ⟨⟨readKey, readValue⟩, later⟩ := List.forall_mem_cons.mp inside
    obtain ⟨t, more, spelled, opens⟩ := tokens_of_plain plainKey
    obtain ⟨t', more', spelled', opens'⟩ := tokens_of_plain plainValue
    have left := memberTokens_pos false members
    have parts : 2 + key.tokens.length + value.tokens.length + (memberTokens false members).length ≤
        (memberTokens first ((key, value) :: members)).length := by
      simp only [memberTokens, List.length_append, List.length_cons]
      omega
    obtain ⟨fuel, rfl⟩ : ∃ n, fuel = n + 3 := ⟨fuel - 3, by omega⟩
    dsimp only at plainKey plainValue readKey readValue
    have keyed := readKey false false (fuel + 1)
      { c with tokens := key.tokens ++
        .value :: (value.tokens ++ (memberTokens false members ++ rest)) } _ (by omega) rfl
    have valued := readValue false false fuel
      { c with tokens := value.tokens ++ (memberTokens false members ++ rest) } _ (by omega) rfl
    refine run_readFlowMembers (by rw [next, memberTokens]; simp)
      (run_readNodeOr opens (by decide) (by rw [spelled]; rfl) keyed)
      (run_readValue opens' (by decide) (by rw [spelled']; rfl) ?_)
      (ih others later false _ { c with tokens := memberTokens false members ++ rest } (by omega) rfl)
    rwa [spelled', List.cons_append] at valued

theorem reads_of_plain {node : Node} (plain : node.Plain) : Reads node := by
  induction plain with
  | scalar style tag text => exact reads_scalar style tag text
  | @sequence items simple inside =>
    intro block bare fuel c rest enough next
    rw [Node.tokens, List.length_cons] at enough
    rw [Node.tokens] at next
    obtain ⟨fuel, rfl⟩ : ∃ n, fuel = n + 1 := ⟨fuel - 1, by omega⟩
    have all := readFlowItems_itemTokens simple inside true fuel
      { c with tokens := itemTokens true items ++ rest } rest (by omega) rfl
    simp [readNode, readProperties, run_peek, run_skip, next, bindAnchor, all]
  | @mapping members keys values readKeys readValues =>
    intro block bare fuel c rest enough next
    rw [Node.tokens, List.length_cons] at enough
    rw [Node.tokens] at next
    obtain ⟨fuel, rfl⟩ : ∃ n, fuel = n + 1 := ⟨fuel - 1, by omega⟩
    have all := readFlowMembers_memberTokens (fun m among => ⟨keys m among, values m among⟩)
      (fun m among => ⟨readKeys m among, readValues m among⟩) true fuel
      { c with tokens := memberTokens true members ++ rest } rest (by omega) rfl
    simp [readNode, readProperties, run_peek, run_skip, next, bindAnchor, all]

end Reading

/-- From the tokens of a node a document with that node is read. -/
theorem Document.ofTokens?_tokens {node : Node} (plain : node.Plain) :
    Document.ofTokens? node.tokens = some ⟨node, []⟩ := by
  obtain ⟨t, more, spelled, opens⟩ := Reading.tokens_of_plain plain
  have read := Reading.reads_of_plain plain true false (4 * node.tokens.length + 4)
    ⟨node.tokens, Reading.commonHandles, [], []⟩ [] (by omega) (List.append_nil _).symm
  have root : (Reading.readRoot (4 * node.tokens.length + 4)).run ⟨node.tokens, [], [], []⟩ =
      some (node, ⟨[], Reading.commonHandles, [], []⟩) := by
    rw [← read]
    simp only [Reading.readRoot, StateT.run_bind, Reading.run_peek]
    rw [spelled]
    cases t with
    | scalar | tag | flowSequence | flowMapping => rfl
    | _ => cases opens
  simp [ofTokens?, root]

end NotificationRelay.Yaml
