import NotificationRelay.Arithmetic

/-! Text in UTF-8. A byte sequence falls into units: an encoded character, or a
longest stretch of bytes that begins one and cannot be completed. -/
namespace NotificationRelay.Utf8

def encode (s : String) : List UInt8 := s.toList.flatMap String.utf8EncodeChar

/-- For a lead byte of a longer sequence: the least and greatest second byte, the number of
bytes after that one, and the bits the lead byte contributes. -/
def second (lead : Nat) : Option (Nat × Nat × Nat × Nat) :=
  if 0xC2 ≤ lead ∧ lead ≤ 0xDF then some (0x80, 0xBF, 0, lead % 32)
  else if lead = 0xE0 then some (0xA0, 0xBF, 1, lead % 16)
  else if lead = 0xED then some (0x80, 0x9F, 1, lead % 16)
  else if 0xE1 ≤ lead ∧ lead ≤ 0xEF then some (0x80, 0xBF, 1, lead % 16)
  else if lead = 0xF0 then some (0x90, 0xBF, 2, lead % 8)
  else if 0xF1 ≤ lead ∧ lead ≤ 0xF3 then some (0x80, 0xBF, 2, lead % 8)
  else if lead = 0xF4 then some (0x80, 0x8F, 2, lead % 8)
  else none

def continuation : Nat → Nat → Nat → List UInt8 → Option Char × Nat
  | 0, code, used, _ => (some (Char.ofNat code), used)
  | _ + 1, _, used, [] => (none, used)
  | n + 1, code, used, b :: rest =>
    if 0x80 ≤ b.toNat ∧ b.toNat ≤ 0xBF then
      continuation n (code * 64 + b.toNat % 64) (used + 1) rest
    else (none, used)

def unit (b : UInt8) (rest : List UInt8) : Option Char × Nat :=
  if b.toNat < 0x80 then (some (Char.ofNat b.toNat), 1)
  else
    match second b.toNat, rest with
    | some (low, high, more, bits), c :: rest =>
      if low ≤ c.toNat ∧ c.toNat ≤ high then
        continuation more (bits * 64 + c.toNat % 64) 2 rest
      else (none, 1)
    | _, _ => (none, 1)

def units : List UInt8 → List (Option Char × Nat)
  | [] => []
  | b :: rest =>
    let first := unit b rest
    first :: units (rest.drop (first.2 - 1))
termination_by bytes => bytes.length
decreasing_by rw [List.length_drop, List.length_cons]; omega

def decode? (bytes : List UInt8) : Option (List Char) := (units bytes).mapM (·.1)

/-- The number of bytes before the first one that UTF-8 cannot hold. -/
def validLength (bytes : List UInt8) : Nat :=
  total (((units bytes).takeWhile (·.1.isSome)).map (·.2))

/-- The characters of the bytes, with U+FFFD for each unit that is none. -/
def lossy (bytes : List UInt8) : List Char :=
  (units bytes).map (·.1.getD (Char.ofNat 0xFFFD))

end NotificationRelay.Utf8
