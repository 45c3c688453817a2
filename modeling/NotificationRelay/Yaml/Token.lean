import NotificationRelay.Yaml.Scalar

/-! Tokens of YAML. Blocks are told by indentation, so their starts and ends are tokens of their
own; and that something is a key shows only at the colon behind it, so the token that announces a
key is put in later, in front of it. -/
namespace NotificationRelay.Yaml

inductive Token where
  | version (major minor : Nat)
  | handle (name start : String)
  | documentStart
  | documentEnd
  | blockSequence
  | blockMapping
  | blockEnd
  | flowSequence
  | flowSequenceEnd
  | flowMapping
  | flowMappingEnd
  | blockEntry
  | flowEntry
  | key
  | value
  | alias (name : String)
  | anchor (name : String)
  | tag (handle suffix : String)
  | scalar (style : Style) (text : String)
deriving DecidableEq, Repr

structure Candidate where
  tokens : Nat
  place : Cursor
  required : Bool
deriving DecidableEq, Repr

structure Lexer where
  cursor : Cursor
  tokens : Array Token
  /-- The columns of the open blocks, the innermost first. -/
  indents : List Nat
  candidate : Option Candidate
  /-- The candidates outside each open flow collection, the innermost first. -/
  enclosing : List (Option Candidate)
  allowed : Bool
deriving DecidableEq, Repr

namespace Lexer

def start (text : List Char) : Lexer := ⟨.start text, #[], [], none, [], true⟩

def inFlow (l : Lexer) : Bool := !l.enclosing.isEmpty

def indent (l : Lexer) : Int :=
  match l.indents with
  | [] => -1
  | column :: _ => column

def emit (l : Lexer) (t : Token) : Lexer := { l with tokens := l.tokens.push t }

def take (l : Lexer) (n : Nat) (t : Token) : Lexer := { l.emit t with cursor := l.cursor.skip n }

def allow (l : Lexer) (allowed : Bool) : Lexer := { l with allowed }

def dropCandidate (l : Lexer) : Option Lexer :=
  if l.candidate.any (·.required) then none else some { l with candidate := none }

def markCandidate (l : Lexer) : Option Lexer :=
  if l.allowed then do
    let l ← l.dropCandidate
    let required := !l.inFlow && decide (l.indent = l.cursor.column)
    return { l with candidate := some ⟨l.tokens.size, l.cursor, required⟩ }
  else some l

/-- A key stands on one line and has at most 1024 characters. -/
def expires (l : Lexer) (c : Candidate) : Bool :=
  decide (c.place.line < l.cursor.line) || decide (c.place.index + 1024 < l.cursor.index)

def dropExpired (l : Lexer) : Option Lexer :=
  let keep (candidate : Option Candidate) : Option (Option Candidate) :=
    match candidate with
    | none => some none
    | some c => if !l.expires c then some (some c) else if c.required then none else some none
  do
    let candidate ← keep l.candidate
    let enclosing ← l.enclosing.mapM keep
    return { l with candidate, enclosing }

/-- Opens a block at a column behind that of the innermost one. Its token goes behind the first `n`
tokens. -/
def openBlock (l : Lexer) (column n : Nat) (t : Token) : Lexer :=
  if l.inFlow || decide ((column : Int) ≤ l.indent) then l
  else { l with indents := column :: l.indents, tokens := l.tokens.insertIdxIfInBounds n t }

def closeBlocks (l : Lexer) (column : Int) : Lexer :=
  if l.inFlow then l
  else
    let closed := (l.indents.takeWhile fun (n : Nat) => decide (column < n)).length
    { l with
      indents := l.indents.drop closed
      tokens := l.tokens ++ Array.replicate closed Token.blockEnd }

/-- Passes over white space, comments and line breaks. Tabs do not count as white space where a key
may start. -/
def skipToToken : Nat → Lexer → Lexer
  | 0, l => l
  | fuel + 1, l =>
    let isSpace (a : Char) : Bool := a = ' ' || ((l.inFlow || !l.allowed) && a = '\t')
    let c := l.cursor.skipWhile isSpace
    let c := if c.isAt '#' then c.skipWhile fun a => !isBreak a else c
    if c.holdsAt 0 isBreak then
      skipToToken fuel { l with cursor := c.next, allowed := l.allowed || !l.inFlow }
    else { l with cursor := c }

def leaveDocument (l : Lexer) : Option Lexer :=
  return (← (l.closeBlocks (-1)).dropCandidate).allow false

def readNumber (c : Cursor) : Option (Nat × Cursor) :=
  let (digits, next) := c.span Char.isDigit
  if digits.isEmpty || decide (9 < digits.length) then none
  else some (digits.foldl (fun n d => n * 10 + (d.toNat - 48)) 0, next)

def readPercents : Nat → Cursor → Option (List UInt8 × Cursor)
  | 0, c => some ([], c)
  | fuel + 1, c =>
    if c.isAt '%' then do
      let digits := (c.rest.drop 1).take 2
      if digits.length < 2 then none
      let byte ← Text.digitsValue 16 digits
      let (bytes, next) ← readPercents fuel (c.skip 3)
      return (byte.toUInt8 :: bytes, next)
    else some ([], c)

/-- Characters of a tag. Commas and brackets belong to it only where `brackets` is set. -/
def readUri (brackets : Bool) : Nat → Cursor → Option (List Char × Cursor)
  | 0, c => some ([], c)
  | fuel + 1, c =>
    if c.isAt '%' then do
      let (bytes, next) ← readPercents (c.rest.length + 1) c
      let text ← String.fromUTF8? ⟨bytes.toArray⟩
      let (more, last) ← readUri brackets fuel next
      return (text.toList ++ more, last)
    else
      match c.rest with
      | [] => some ([], c)
      | a :: _ =>
        if isNameChar a || ";/?:@&=+$.!~*'()".toList.contains a ||
            (brackets && ",[]".toList.contains a) then
          (readUri brackets fuel c.next).map fun (more, last) => (a :: more, last)
        else some ([], c)

def readHandle (c : Cursor) : Option (List Char × Cursor) :=
  if c.isAt '!' then
    let (name, after) := c.next.span isNameChar
    if after.isAt '!' then some ('!' :: name ++ ['!'], after.next) else some ('!' :: name, after)
  else none

def endDirective (c : Cursor) : Option Cursor :=
  let c := c.skipWhile isBlank
  let c := if c.isAt '#' then c.skipWhile fun a => !isBreak a else c
  if c.atEnd then some c else if c.holdsAt 0 isBreak then some c.next else none

def readVersion (l : Lexer) (c : Cursor) : Option Lexer := do
  let (major, c) ← readNumber (c.skipWhile isBlank)
  if !c.isAt '.' then none
  let (minor, c) ← readNumber c.next
  return { l.emit (.version major minor) with cursor := ← endDirective c }

def readTagHandle (l : Lexer) (c : Cursor) : Option Lexer := do
  let (name, c) ← readHandle (c.skipWhile isBlank)
  if name != ['!'] && (name.length < 2 || name.getLast? != some '!') then none
  if !c.holdsAt 0 isBlank then none
  let c := c.skipWhile isBlank
  let (start, c) ← readUri true (c.rest.length + 1) c
  if start.isEmpty || !c.endsAt 0 then none
  let t := Token.handle (String.ofList name) (String.ofList start)
  return { l.emit t with cursor := ← endDirective c }

def readDirective (l : Lexer) : Option Lexer := do
  let l ← l.leaveDocument
  let (name, c) := l.cursor.next.span isNameChar
  if !c.endsAt 0 then none
  match String.ofList name with
  | "YAML" => l.readVersion c
  | "TAG" => l.readTagHandle c
  | _ => none

def readMark (l : Lexer) (t : Token) : Option Lexer :=
  return (← l.leaveDocument).take 3 t

def openFlow (l : Lexer) (t : Token) : Option Lexer := do
  let l ← l.markCandidate
  let l := { l with enclosing := l.candidate :: l.enclosing, candidate := none }
  return (l.take 1 t).allow true

def closeFlow (l : Lexer) (t : Token) : Option Lexer := do
  let l ← l.dropCandidate
  let l :=
    match l.enclosing with
    | [] => l
    | candidate :: enclosing => { l with candidate, enclosing }
  return (l.take 1 t).allow false

def readFlowEntry (l : Lexer) : Option Lexer :=
  return ((← l.dropCandidate).take 1 .flowEntry).allow true

def enterBlock (l : Lexer) (block : Token) : Option Lexer :=
  if l.inFlow then some l
  else if l.allowed then some (l.openBlock l.cursor.column l.tokens.size block)
  else none

def readBlockEntry (l : Lexer) : Option Lexer := do
  let l ← (← l.enterBlock .blockSequence).dropCandidate
  return (l.take 1 .blockEntry).allow true

def readKey (l : Lexer) : Option Lexer := do
  let l ← (← l.enterBlock .blockMapping).dropCandidate
  return (l.take 1 .key).allow !l.inFlow

def readValue (l : Lexer) : Option Lexer := do
  match l.candidate with
  | some c =>
    let l := { l with tokens := l.tokens.insertIdxIfInBounds c.tokens .key, candidate := none }
    let l := l.openBlock c.place.column c.tokens .blockMapping
    return (l.take 1 .value).allow false
  | none =>
    let l ← l.enterBlock .blockMapping
    return (l.take 1 .value).allow !l.inFlow

def readAnchor (l : Lexer) (t : String → Token) : Option Lexer := do
  let l ← l.markCandidate
  let (name, c) := l.cursor.next.span isNameChar
  let ends := c.endsAt 0 || c.holdsAt 0 fun a => "?:,]\x7d%@`".toList.contains a
  if name.isEmpty || !ends then none
  return { (l.emit (t (String.ofList name))).allow false with cursor := c }

def readTag (l : Lexer) : Option Lexer := do
  let l ← l.markCandidate
  let c := l.cursor
  let (handle, suffix, c) ← do
    if c.holdsAt 1 (· = '<') then
      let (uri, c) ← readUri true (c.rest.length + 1) (c.skip 2)
      if uri.isEmpty || !c.isAt '>' then none
      some ([], uri, c.next)
    else
      let (name, c) ← readHandle c
      if name.length ≥ 2 && name.getLast? = some '!' then
        let (uri, c) ← readUri false (c.rest.length + 1) c
        if uri.isEmpty then none
        some (name, uri, c)
      else
        let (uri, c) ← readUri false (c.rest.length + 1) c
        let suffix := name.drop 1 ++ uri
        if suffix.isEmpty then some ([], ['!'], c) else some (['!'], suffix, c)
  if !(c.endsAt 0 || (l.inFlow && c.isAt ',')) then none
  let t := Token.tag (String.ofList handle) (String.ofList suffix)
  return { (l.emit t).allow false with cursor := c }

def readBlockScalar (l : Lexer) (style : Style) : Option Lexer := do
  let l ← l.dropCandidate
  let (text, c) ← readBlock (style = .literal) l.indent l.cursor.next
  return { (l.emit (.scalar style (String.ofList text))).allow true with cursor := c }

def readQuotedScalar (l : Lexer) (single : Bool) : Option Lexer := do
  let l ← l.markCandidate
  let c := l.cursor.next
  let (text, c) ← readQuoted single (c.rest.length + 1) c
  return { (l.emit (.scalar .quoted (String.ofList text))).allow false with cursor := c }

def startsPlain (l : Lexer) (a : Char) : Bool :=
  !(isBlank a || isBreak a || "-?:,[]\x7b\x7d#&*!|>'\"%@`".toList.contains a) ||
    (a = '-' && !l.cursor.holdsAt 1 isBlank) ||
    (!l.inFlow && (a = '?' || a = ':') && !l.cursor.endsAt 1)

def readPlainScalar (l : Lexer) : Option Lexer := do
  let l ← l.markCandidate
  let (text, broken, c) ←
    readPlain l.inFlow (l.indent + 1).toNat (l.cursor.rest.length + 1) l.cursor Gap.none false
  return { (l.emit (.scalar .plain (String.ofList text))).allow broken with cursor := c }

def readToken (l : Lexer) (a : Char) : Option Lexer :=
  let c := l.cursor
  let indicates (always : Bool) : Bool := always || c.endsAt 1
  if c.column = 0 && a = '%' then l.readDirective
  else if c.isMark '-' then l.readMark .documentStart
  else if c.isMark '.' then l.readMark .documentEnd
  else if a = '[' then l.openFlow .flowSequence
  else if a = '\x7b' then l.openFlow .flowMapping
  else if a = ']' then l.closeFlow .flowSequenceEnd
  else if a = '\x7d' then l.closeFlow .flowMappingEnd
  else if a = ',' then l.readFlowEntry
  else if a = '-' && indicates false then l.readBlockEntry
  else if a = '?' && indicates l.inFlow then l.readKey
  else if a = ':' && indicates l.inFlow then l.readValue
  else if a = '*' then l.readAnchor .alias
  else if a = '&' then l.readAnchor .anchor
  else if a = '!' then l.readTag
  else if a = '|' && !l.inFlow then l.readBlockScalar .literal
  else if a = '>' && !l.inFlow then l.readBlockScalar .folded
  else if a = '\'' then l.readQuotedScalar true
  else if a = '"' then l.readQuotedScalar false
  else if l.startsPlain a then l.readPlainScalar
  else none

def readTokens : Nat → Lexer → Option (List Token)
  | 0, _ => none
  | fuel + 1, l => do
    let l ← (l.skipToToken (l.cursor.rest.length + 1)).dropExpired
    let l := l.closeBlocks l.cursor.column
    match l.cursor.rest with
    | [] => return (← l.leaveDocument).tokens.toList
    | a :: _ => readTokens fuel (← l.readToken a)

end Lexer

/-- A mark of the byte order may stand at the very start. -/
def skipOrderMark (l : Lexer) : Lexer :=
  if l.cursor.holdsAt 0 (·.toNat = 0xFEFF) then { l with cursor := l.cursor.next } else l

def Token.ofText? (text : String) : Option (List Token) :=
  let characters := text.toList
  if characters.all isPrintable then
    (skipOrderMark (.start (unifyBreaks characters))).readTokens (characters.length + 1)
  else none

end NotificationRelay.Yaml
