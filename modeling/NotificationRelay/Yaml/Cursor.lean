/-! Places in a YAML text. -/
namespace NotificationRelay.Yaml

def isBreak (c : Char) : Bool := c = '\n' || c.toNat = 0x2028 || c.toNat = 0x2029

def isBlank (c : Char) : Bool := c = ' ' || c = '\t'

def isNameChar (c : Char) : Bool := c.isAlphanum || c = '_' || c = '-'

def isPrintable (c : Char) : Bool :=
  let n := c.toNat
  n = 0x09 || n = 0x0A || n = 0x0D || n = 0x85 || (0x20 ≤ n && n ≤ 0x7E) ||
    (0xA0 ≤ n && n ≤ 0xFFFD) || 0x10000 ≤ n

/-- Each line break as one line feed, except the two that are kept as they are. -/
def unifyBreaks : List Char → List Char
  | [] => []
  | '\r' :: '\n' :: rest => '\n' :: unifyBreaks rest
  | c :: rest => (if c = '\r' || c.toNat = 0x85 then '\n' else c) :: unifyBreaks rest

structure Cursor where
  rest : List Char
  line : Nat
  column : Nat
  index : Nat
deriving DecidableEq, Repr

namespace Cursor

def start (text : List Char) : Cursor := ⟨text, 0, 0, 0⟩

def next (c : Cursor) : Cursor :=
  match c.rest with
  | [] => c
  | a :: rest =>
    if isBreak a then ⟨rest, c.line + 1, 0, c.index + 1⟩
    else ⟨rest, c.line, c.column + 1, c.index + 1⟩

theorem rest_next (c : Cursor) : c.next.rest = c.rest.tail := by
  unfold next
  split
  · simp [*]
  · split <;> simp [*]

def skip : Nat → Cursor → Cursor
  | 0, c => c
  | n + 1, c => skip n c.next

theorem rest_skip (n : Nat) (c : Cursor) : (c.skip n).rest = c.rest.drop n := by
  induction n generalizing c with
  | zero => rfl
  | succ n step => rw [skip, step, rest_next, List.drop_tail]

def skipWhile (p : Char → Bool) (c : Cursor) : Cursor := c.skip (c.rest.takeWhile p).length

def span (p : Char → Bool) (c : Cursor) : List Char × Cursor := (c.rest.takeWhile p, c.skipWhile p)

theorem rest_span (p : Char → Bool) (c : Cursor) :
    (c.span p).1 ++ (c.span p).2.rest = c.rest := by
  simp only [span, skipWhile, rest_skip]
  induction c.rest with
  | nil => rfl
  | cons a rest step => by_cases h : p a <;> simp [h, step]

def holdsAt (c : Cursor) (n : Nat) (p : Char → Bool) : Bool :=
  match c.rest[n]? with
  | some a => p a
  | none => false

def isAt (c : Cursor) (a : Char) : Bool := c.holdsAt 0 (· = a)

def atEnd (c : Cursor) : Bool := c.rest.isEmpty

def endsAt (c : Cursor) (n : Nat) : Bool :=
  match c.rest[n]? with
  | some a => isBlank a || isBreak a
  | none => true

def isMark (c : Cursor) (a : Char) : Bool :=
  c.column = 0 && c.rest.take 3 = [a, a, a] && c.endsAt 3

def isDocumentMark (c : Cursor) : Bool := c.isMark '-' || c.isMark '.'

end Cursor

end NotificationRelay.Yaml
