import NotificationRelay.Binary64.Basic

/-! Decimal text of binary64 numbers: the fewest digits that read back, nearest to
the number among those, in one of two layouts. -/
namespace NotificationRelay

structure Decimal where
  digits : Nat
  exponent : Int
deriving DecidableEq, Repr

namespace Decimal

/-- Drops final zeros of the digits, at most `fuel` of them. -/
def strip : Nat → Decimal → Decimal
  | 0, d => d
  | fuel + 1, d =>
    if d.digits ≠ 0 ∧ d.digits % 10 = 0 then strip fuel ⟨d.digits / 10, d.exponent + 1⟩ else d

def numerator (d : Decimal) : Nat := d.digits * tenTo d.exponent.toNat

def denominator (d : Decimal) : Nat := tenTo (-d.exponent).toNat

end Decimal

inductive Tie where
  | toEven
  | up
deriving DecidableEq, Repr

namespace Binary64

def decimalLength (n : Nat) : Nat := if n = 0 then 0 else (Nat.toDigits 10 n).length

def decimalScale (x : Binary64) : Int :=
  let one := twoTo 1074
  if one ≤ x.units then decimalLength (x.units / one)
  else 1 - (decimalLength ((one + x.units - 1) / x.units - 1) : Int)

def readsBack (x : Binary64) (d : Decimal) : Bool :=
  magnitudeOf d.numerator d.denominator == x.magnitude

/-- Compares the midpoint of `low` and `low + 1` on a decimal grid with the number. -/
def compareMidpoint (x : Binary64) (low : Decimal) : Ordering :=
  let twice : Decimal := ⟨2 * low.digits + 1, low.exponent⟩
  compare (twice.numerator * twoTo 1074) (2 * x.units * twice.denominator)

/-- The candidate with at most `n` digits: one of the two neighbours of the number on
the grid of `n` digits, if either reads back. -/
def candidate (tie : Tie) (x : Binary64) (scale : Int) (n : Nat) : Option Decimal :=
  let exponent := scale - n
  let floor := x.units * tenTo (-exponent).toNat / (twoTo 1074 * tenTo exponent.toNat)
  let low : Decimal := ⟨floor, exponent⟩
  let high : Decimal := ⟨floor + 1, exponent⟩
  match readsBack x low, readsBack x high with
  | true, true =>
    match compareMidpoint x low, tie with
    | .gt, _ => some low
    | .lt, _ => some high
    | .eq, .up => some high
    | .eq, .toEven => some (if floor % 2 = 0 then low else high)
  | true, false => some low
  | false, true => some high
  | false, false => none

/-- The fewest digits that identify a finite number. Seventeen always do; the exact value
stands behind them so that nothing is ever guessed. -/
def shortest (tie : Tie) (x : Binary64) : Decimal :=
  if x.units = 0 then ⟨0, 0⟩
  else
    let scale := x.decimalScale
    let found := (List.range 17).findSome? fun n => candidate tie x scale (n + 1)
    (found.getD ⟨x.units * (tenTo 1074 / twoTo 1074), -1074⟩).strip 1100

/-- Digits with the point after the first `point` of them, padded with zeros on either side. -/
def positional (digits : List Char) (point : Int) : List Char × List Char :=
  if point ≤ 0 then (['0'], List.replicate (-point).toNat '0' ++ digits)
  else
    let whole := digits.take point.toNat
    (whole ++ List.replicate (point.toNat - whole.length) '0', digits.drop point.toNat)

def scientific (digits : List Char) (exponent : Int) : List Char :=
  let fraction := digits.drop 1
  digits.take 1 ++ (if fraction.isEmpty then [] else '.' :: fraction) ++ ['e'] ++
    [if exponent < 0 then '-' else '+'] ++ Nat.toDigits 10 exponent.natAbs

/-- Numbers in JSON: positional between 1e-5 and 1e16 and always with a point there,
otherwise with a signed exponent. -/
def jsonDigits (x : Binary64) : List Char :=
  let d := x.shortest .toEven
  let digits := Nat.toDigits 10 d.digits
  let point := digits.length + d.exponent
  let sign := if x.isNegative then ['-'] else []
  if -5 ≤ point - 1 ∧ point - 1 ≤ 15 then
    let (whole, fraction) := positional digits point
    sign ++ whole ++ ['.'] ++ (if fraction.isEmpty then ['0'] else fraction)
  else sign ++ scientific digits (point - 1)

def plainDigits (x : Binary64) : List Char :=
  let d := x.shortest .up
  let digits := Nat.toDigits 10 d.digits
  let (whole, fraction) := positional digits (digits.length + d.exponent)
  (if x.isNegative then ['-'] else []) ++ whole ++
    (if fraction.isEmpty then [] else '.' :: fraction)

def render (finite : Binary64 → List Char) (x : Binary64) : String :=
  if x.isNaN then "NaN"
  else if x.isInfinite then if x.isNegative then "-inf" else "inf"
  else String.ofList (finite x)

def jsonText (x : Binary64) : String := render jsonDigits x

def plainText (x : Binary64) : String := render plainDigits x

end Binary64

end NotificationRelay
