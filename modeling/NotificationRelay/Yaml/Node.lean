import NotificationRelay.Yaml.Token

/-! Nodes of YAML, and the document that a text holds. -/
namespace NotificationRelay.Yaml

inductive Node where
  | scalar (style : Style) (tag : Option String) (text : String)
  | sequence (items : List Node)
  | mapping (members : List (Node × Node))
  /-- The node with this anchor; anchors are counted in the order of their tokens. -/
  | alias (anchor : Nat)
deriving Repr

/-- What stands where nothing is written. -/
def Node.empty : Node := .scalar .plain none ""

structure Document where
  root : Node
  anchored : List (Nat × Node)
deriving Repr

/-- The node that an alias stands for; any other stands for itself. -/
def Document.resolve (d : Document) : Node → Node
  | .alias anchor => (d.anchored.lookup anchor).getD .empty
  | node => node

structure Context where
  tokens : List Token
  handles : List (String × String)
  names : List String
  anchored : List (Nat × Node)

abbrev Reading := StateT Context Option

namespace Reading

def peek : Reading (Option Token) := return (← get).tokens.head?

def skip : Reading Unit := modify fun c => { c with tokens := c.tokens.tail }

def comes (t : Token) : Reading Bool := return (← peek) = some t

def expect (t : Token) : Reading Unit := do
  if ← comes t then skip else failure

def endsAt (tokens : List Token) : Reading Bool :=
  return (← peek).all (tokens.contains ·)

def fullTag (handle suffix : String) : Reading String := do
  if handle.isEmpty then return suffix
  match (← get).handles.lookup handle with
  | some start => return start ++ suffix
  | none => failure

def declare (name : String) : Reading Nat := do
  let c ← get
  set { c with names := name :: c.names }
  return c.names.length

def bindAnchor (anchor : Option Nat) (node : Node) : Reading Node := do
  match anchor with
  | some n => modify fun c => { c with anchored := (n, node) :: c.anchored }
  | none => pure ()
  return node

def findAnchor (name : String) : Reading Node := do
  let names := (← get).names
  match names.idxOf? name with
  | some n => return .alias (names.length - 1 - n)
  | none => failure

def readProperties : Nat → Option Nat → Option String → Reading (Option Nat × Option String)
  | 0, anchor, tag => return (anchor, tag)
  | more + 1, anchor, tag => do
    match ← peek, anchor, tag with
    | some (.anchor name), none, _ =>
      skip
      readProperties more (some (← declare name)) tag
    | some (.tag handle suffix), _, none =>
      skip
      readProperties more anchor (some (← fullTag handle suffix))
    | _, _, _ => return (anchor, tag)

mutual

/-- Reads a node. Blocks start only where `block` is set, and a sequence may stand at the
indentation of the mapping around it only where `bare` is set. -/
def readNode (block bare : Bool) : Nat → Reading Node
  | 0 => failure
  | fuel + 1 => do
    match ← peek with
    | some (.alias name) =>
      skip
      findAnchor name
    | _ =>
      let (anchor, tag) ← readProperties 2 none none
      let node ← (do
        match ← peek with
        | some (.scalar style text) =>
          skip
          return .scalar style tag text
        | some .flowSequence =>
          skip
          return .sequence (← readFlowItems true fuel)
        | some .flowMapping =>
          skip
          return .mapping (← readFlowMembers true fuel)
        | some t =>
          if bare && t = .blockEntry then return .sequence (← readBareItems fuel)
          else if block && t = .blockSequence then
            skip
            return .sequence (← readBlockItems fuel)
          else if block && t = .blockMapping then
            skip
            return .mapping (← readBlockMembers fuel)
          else if anchor.isSome || tag.isSome then return .scalar .plain tag ""
          else failure
        | none =>
          if anchor.isSome || tag.isSome then return .scalar .plain tag ""
          else failure)
      bindAnchor anchor node

def readNodeOr (ends : List Token) (block bare : Bool) : Nat → Reading Node
  | 0 => failure
  | fuel + 1 => do
    if ← endsAt ends then return .empty else readNode block bare fuel

/-- Reads a node behind a colon; without one there is nothing. -/
def readValue (ends : List Token) (block bare : Bool) : Nat → Reading Node
  | 0 => failure
  | fuel + 1 => do
    if ← comes .value then
      skip
      readNodeOr ends block bare fuel
    else return .empty

def readBlockItems : Nat → Reading (List Node)
  | 0 => failure
  | fuel + 1 => do
    if ← comes .blockEntry then
      skip
      let item ← readNodeOr [.blockEntry, .blockEnd] true false fuel
      return item :: (← readBlockItems fuel)
    else
      expect .blockEnd
      return []

def readBareItems : Nat → Reading (List Node)
  | 0 => failure
  | fuel + 1 => do
    if ← comes .blockEntry then
      skip
      let item ← readNodeOr [.blockEntry, .key, .value, .blockEnd] true false fuel
      return item :: (← readBareItems fuel)
    else return []

def readBlockMembers : Nat → Reading (List (Node × Node))
  | 0 => failure
  | fuel + 1 => do
    if ← comes .key then
      skip
      let ends : List Token := [.key, .value, .blockEnd]
      let key ← readNodeOr ends true true fuel
      let value ← readValue ends true true fuel
      return (key, value) :: (← readBlockMembers fuel)
    else
      expect .blockEnd
      return []

/-- Items of a flow sequence. A key in it starts a mapping of one member; if that key is left
empty, the token behind it is passed over. -/
def readFlowItems (first : Bool) : Nat → Reading (List Node)
  | 0 => failure
  | fuel + 1 => do
    if ← comes .flowSequenceEnd then
      skip
      return []
    if !first then expect .flowEntry
    if ← comes .key then
      skip
      let key ← (do
        if ← endsAt [.value, .flowEntry, .flowSequenceEnd] then
          skip
          return .empty
        else readNode false false fuel)
      let value ← readValue [.flowEntry, .flowSequenceEnd] false false fuel
      return .mapping [(key, value)] :: (← readFlowItems false fuel)
    else if ← comes .flowSequenceEnd then
      skip
      return []
    else
      let item ← readNode false false fuel
      return item :: (← readFlowItems false fuel)

/-- Members of a flow mapping. What is not announced as a key has no value. -/
def readFlowMembers (first : Bool) : Nat → Reading (List (Node × Node))
  | 0 => failure
  | fuel + 1 => do
    if ← comes .flowMappingEnd then
      skip
      return []
    if !first then expect .flowEntry
    if ← comes .key then
      skip
      let key ← readNodeOr [.value, .flowEntry, .flowMappingEnd] false false fuel
      let value ← readValue [.flowEntry, .flowMappingEnd] false false fuel
      return (key, value) :: (← readFlowMembers false fuel)
    else if ← comes .flowMappingEnd then
      skip
      return []
    else
      let key ← readNode false false fuel
      return (key, .empty) :: (← readFlowMembers false fuel)

end

/-- Directives in front of a document: at most one version, which has to be 1.1 or 1.2, and each
handle at most once. -/
def readDirectives (versioned : Bool) : Nat → Reading Unit
  | 0 => pure ()
  | fuel + 1 => do
    match ← peek with
    | some (.version major minor) =>
      if versioned || major ≠ 1 || (minor ≠ 1 && minor ≠ 2) then failure
      skip
      readDirectives true fuel
    | some (.handle name start) =>
      if ((← get).handles.lookup name).isSome then failure
      skip
      modify fun c => { c with handles := (name, start) :: c.handles }
      readDirectives versioned fuel
    | _ => pure ()

def commonHandles : List (String × String) := [("!", "!"), ("!!", "tag:yaml.org,2002:")]

/-- A document whose start is marked may be empty. -/
def readMarked (fuel : Nat) : Reading Node := do
  readDirectives false fuel
  modify fun c => { c with handles := c.handles ++ commonHandles }
  expect .documentStart
  match ← peek with
  | none | some (.version ..) | some (.handle ..) | some .documentStart | some .documentEnd =>
    return .empty
  | _ => readNode true false fuel

def readRoot (fuel : Nat) : Reading Node := do
  match ← peek with
  | none => return .empty
  | some (.version ..) | some (.handle ..) | some .documentStart => readMarked fuel
  | _ =>
    modify fun c => { c with handles := commonHandles }
    readNode true false fuel

end Reading

def Document.ofTokens? (tokens : List Token) : Option Document := do
  let fuel := 4 * tokens.length + 4
  let (root, c) ← (Reading.readRoot fuel).run ⟨tokens, [], [], []⟩
  if (c.tokens.dropWhile (· = .documentEnd)).isEmpty then return ⟨root, c.anchored⟩ else none

/-- The single document of a text. An empty text holds an empty document. -/
def Document.ofText? (text : String) : Option Document := do
  Document.ofTokens? (← Token.ofText? text)

end NotificationRelay.Yaml
