import NotificationRelay.Text.Digits
import NotificationRelay.Yaml.Cursor

/-! Scalars of YAML: plain, quoted and block. -/
namespace NotificationRelay.Yaml

open Cursor

inductive Style where
  | plain
  | quoted
  | literal
  | folded
deriving DecidableEq, Repr

structure Gap where
  blanks : List Char
  first : Option Char
  more : List Char
deriving DecidableEq, Repr

namespace Gap

def none : Gap := ⟨[], .none, []⟩

def escaped : Gap := ⟨[], .none, []⟩

/-- One line feed becomes a space, and of several the first one goes. -/
def folded (g : Gap) : List Char :=
  match g.first with
  | .none => g.blanks
  | some '\n' => if g.more.isEmpty then [' '] else g.more
  | some c => c :: g.more

end Gap

/-- Reads blanks and line breaks. In a plain scalar a tab in front of column `indent` is refused. -/
def readGap (indent : Option Nat) (broken : Bool) :
    Nat → Cursor → Gap → Option (Gap × Bool × Cursor)
  | 0, c, gap => some (gap, broken, c)
  | fuel + 1, c, gap =>
    match c.rest with
    | a :: _ =>
      if isBlank a then
        if broken then
          if a = '\t' && indent.any fun n => c.column < n then none
          else readGap indent true fuel c.next gap
        else readGap indent false fuel c.next { gap with blanks := gap.blanks ++ [a] }
      else if isBreak a then
        if broken then readGap indent true fuel c.next { gap with more := gap.more ++ [a] }
        else readGap indent true fuel c.next ⟨[], some a, []⟩
      else some (gap, broken, c)
    | [] => some (gap, broken, c)

def endsPlain (flow : Bool) (c : Cursor) : Bool :=
  match c.rest with
  | [] => true
  | a :: _ =>
    isBlank a || isBreak a || (a = ':' && c.endsAt 1) || (flow && ",[]\x7b\x7d".toList.contains a)

/-- A colon that a flow indicator follows may not stand in a plain scalar. -/
def isStrayColon (flow : Bool) (c : Cursor) : Bool :=
  flow && c.isAt ':' && c.holdsAt 1 fun a => ",?[]\x7b\x7d".toList.contains a

def readChunk (flow : Bool) : Nat → Cursor → Option (List Char × Cursor)
  | 0, c => some ([], c)
  | fuel + 1, c =>
    if isStrayColon flow c then none
    else if endsPlain flow c then some ([], c)
    else
      match c.rest with
      | [] => some ([], c)
      | a :: _ => (readChunk flow fuel c.next).map fun (chunk, c) => (a :: chunk, c)

def readPlain (flow : Bool) (indent : Nat) :
    Nat → Cursor → Gap → Bool → Option (List Char × Bool × Cursor)
  | 0, c, _, broken => some ([], broken, c)
  | fuel + 1, c, gap, broken =>
    if c.isDocumentMark || c.isAt '#' then some ([], broken, c)
    else do
      let (chunk, after) ← readChunk flow (c.rest.length + 1) c
      let lead := if chunk.isEmpty then [] else gap.folded ++ chunk
      let gap := if chunk.isEmpty then gap else Gap.none
      let broken := if chunk.isEmpty then broken else false
      if !after.holdsAt 0 fun a => isBlank a || isBreak a then return (lead, broken, after)
      else
        let (gap, broken, next) ← readGap (some indent) broken (after.rest.length + 1) after gap
        if !flow && decide (next.column < indent) then return (lead, broken, next)
        else
          let (more, broken, last) ← readPlain flow indent fuel next gap broken
          return (lead ++ more, broken, last)

def escape (c : Char) : Option (Nat ⊕ Nat) :=
  match c with
  | '0' => some (.inl 0)
  | 'a' => some (.inl 7)
  | 'b' => some (.inl 8)
  | 't' | '\t' => some (.inl 9)
  | 'n' => some (.inl 10)
  | 'v' => some (.inl 11)
  | 'f' => some (.inl 12)
  | 'r' => some (.inl 13)
  | 'e' => some (.inl 27)
  | ' ' | '"' | '/' | '\\' => some (.inl c.toNat)
  | 'N' => some (.inl 0x85)
  | '_' => some (.inl 0xA0)
  | 'L' => some (.inl 0x2028)
  | 'P' => some (.inl 0x2029)
  | 'x' => some (.inr 2)
  | 'u' => some (.inr 4)
  | 'U' => some (.inr 8)
  | _ => none

def readEscape (c : Cursor) : Option (Char × Cursor) :=
  match c.rest[1]? with
  | none => none
  | some letter =>
    match escape letter with
    | none => none
    | some (.inl code) => some (Char.ofNat code, c.skip 2)
    | some (.inr length) =>
      let digits := (c.rest.drop 2).take length
      if digits.length < length then none
      else
        match Text.digitsValue 16 digits with
        | some code =>
          if code.isValidChar then some (Char.ofNat code, c.skip (2 + length)) else none
        | none => none

/-- Characters of a quoted scalar up to white space or the closing quote. Tells whether an escaped
line break stands at the end. -/
def readQuotedChunk (single : Bool) : Nat → Cursor → Option (List Char × Bool × Cursor)
  | 0, c => some ([], false, c)
  | fuel + 1, c =>
    match c.rest with
    | [] => some ([], false, c)
    | a :: _ =>
      if isBlank a || isBreak a then some ([], false, c)
      else if single && a = '\'' && c.holdsAt 1 (· = '\'') then
        (readQuotedChunk single fuel (c.skip 2)).map fun (chunk, rest) => ('\'' :: chunk, rest)
      else if a = (if single then '\'' else '"') then some ([], false, c)
      else if !single && a = '\\' then
        if c.holdsAt 1 isBreak then some ([], true, c.skip 2)
        else do
          let (escaped, next) ← readEscape c
          let (chunk, rest) ← readQuotedChunk single fuel next
          return (escaped :: chunk, rest)
      else (readQuotedChunk single fuel c.next).map fun (chunk, rest) => (a :: chunk, rest)

def readQuoted (single : Bool) : Nat → Cursor → Option (List Char × Cursor)
  | 0, _ => none
  | fuel + 1, c =>
    if c.isDocumentMark || c.atEnd then none
    else do
      let (chunk, broken, after) ← readQuotedChunk single (c.rest.length + 1) c
      if after.isAt (if single then '\'' else '"') then return (chunk, after.next)
      else
        let (gap, _, next) ← readGap none broken (after.rest.length + 1) after Gap.none
        let (more, last) ← readQuoted single fuel next
        return (chunk ++ (if broken then gap.more else gap.folded) ++ more, last)

inductive Chomp where
  | strip
  | clip
  | keep
deriving DecidableEq, Repr

def readHeader (c : Cursor) : Option (Chomp × Option Nat × Cursor) :=
  let chomp? (c : Cursor) : Option Chomp :=
    if c.isAt '+' then some .keep else if c.isAt '-' then some .strip else none
  let digit? (c : Cursor) : Option Nat :=
    (c.rest.head?.filter Char.isDigit).map fun d => d.toNat - 48
  let header : Chomp × Option Nat × Cursor :=
    match chomp? c with
    | some chomp =>
      match digit? c.next with
      | some n => (chomp, some n, c.skip 2)
      | none => (chomp, none, c.next)
    | none =>
      match digit? c with
      | some n =>
        match chomp? c.next with
        | some chomp => (chomp, some n, c.skip 2)
        | none => (.clip, some n, c.next)
      | none => (.clip, none, c)
  if header.2.1 = some 0 then none else some header

/-- Line breaks in front of the content of a block scalar, and its indentation, which the deepest
of those lines gives if it is not known. -/
def readIndentation (least : Nat) (indent : Option Nat) :
    Nat → Cursor → (deepest : Nat) → List Char → Option (Nat × List Char × Cursor)
  | 0, _, _, _ => none
  | fuel + 1, c, deepest, breaks =>
    let isBelow (c : Cursor) : Bool := indent.all fun n => c.column < n
    let room := match indent with
      | some n => n - c.column
      | none => c.rest.length
    let spaces := ((c.rest.take room).takeWhile (· = ' ')).length
    let c := c.skip spaces
    let deepest := max deepest c.column
    if isBelow c && c.isAt '\t' then none
    else if c.holdsAt 0 isBreak then
      readIndentation least indent fuel c.next deepest (breaks ++ c.rest.take 1)
    else some (indent.getD (max deepest least), breaks, c)

/-- The lines of a block scalar. `first` is the line break in front of the line, `breaks` stand
behind that, and `blank` tells whether the last line started with a blank. -/
def readLines (literal : Bool) (least indent : Nat) :
    Nat → Cursor → (first : List Char) → (breaks : List Char) → (blank : Bool) →
      Option (List Char × List Char × List Char × Cursor)
  | 0, _, _, _, _ => none
  | fuel + 1, c, first, breaks, blank =>
    if c.column = indent && !c.atEnd then do
      let leads := c.holdsAt 0 isBlank
      let lead :=
        if !literal && first = ['\n'] && !blank && !leads then
          if breaks.isEmpty then [' '] else breaks
        else first ++ breaks
      let (line, after) := c.span fun a => !isBreak a
      let (_, breaks, next) ←
        readIndentation least (some indent) (after.rest.length + 2) after.next 0 []
      let (more, tail) ←
        readLines literal least indent fuel next (after.rest.take 1) breaks leads
      return (lead ++ line ++ more, tail)
    else some ([], first, breaks, c)

def readBlock (literal : Bool) (parent : Int) (c : Cursor) : Option (List Char × Cursor) := do
  let (chomp, own, c) ← readHeader c
  let c := c.skipWhile isBlank
  let c := if c.isAt '#' then c.skipWhile fun a => !isBreak a else c
  if !c.atEnd && !c.holdsAt 0 isBreak then none
  let c := c.next
  let least := max 1 (parent + 1).toNat
  let known := own.map fun n => parent.toNat + n
  let (indent, breaks, c) ← readIndentation least known (c.rest.length + 2) c 0 []
  let (lines, first, breaks, c) ← readLines literal least indent (c.rest.length + 2) c [] breaks
    false
  let tail := match chomp with
    | .strip => []
    | .clip => first
    | .keep => first ++ breaks
  return (lines ++ tail, c)

end NotificationRelay.Yaml
