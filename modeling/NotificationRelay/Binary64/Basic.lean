import NotificationRelay.Arithmetic

/-! Binary64 numbers held as their interchange encoding. A finite number is an
exact multiple of the least positive one, so order, rounding and arithmetic are
stated over the integers. -/
namespace NotificationRelay

structure Binary64 where
  bits : UInt64
deriving DecidableEq, Repr

namespace Binary64

/-- The encoding without its sign bit. Magnitudes are ordered as the numbers are. -/
def magnitude (x : Binary64) : Nat := x.bits.toNat % twoTo 63

def isNegative (x : Binary64) : Bool := decide (twoTo 63 ≤ x.bits.toNat)

/-- The magnitude of the infinities; every greater one is no number. -/
def infinityMagnitude : Nat := 2047 * twoTo 52

def isNaN (x : Binary64) : Bool := decide (infinityMagnitude < x.magnitude)

def isFinite (x : Binary64) : Bool := decide (x.magnitude < infinityMagnitude)

def isInfinite (x : Binary64) : Bool := decide (x.magnitude = infinityMagnitude)

def ofMagnitude (negative : Bool) (magnitude : Nat) : Binary64 :=
  ⟨UInt64.ofNat ((if negative then twoTo 63 else 0) + magnitude)⟩

def zero : Binary64 := ofMagnitude false 0

def infinity (negative : Bool) : Binary64 := ofMagnitude negative infinityMagnitude

def nan : Binary64 := ofMagnitude false (infinityMagnitude + twoTo 51)

instance : Inhabited Binary64 := ⟨zero⟩

def negate (x : Binary64) : Binary64 := ofMagnitude (!x.isNegative) x.magnitude

/-- Place in the order of all numbers. Both zeros have rank zero. -/
def rank (x : Binary64) : Int := if x.isNegative then -(x.magnitude : Int) else x.magnitude

/-- Comparison of numbers: what is no number compares with nothing. -/
def le (x y : Binary64) : Bool := !x.isNaN && !y.isNaN && decide (x.rank ≤ y.rank)

def lt (x y : Binary64) : Bool := !x.isNaN && !y.isNaN && decide (x.rank < y.rank)

/-- Equality of numbers: the two zeros are equal, and what is no number differs from itself. -/
def same (x y : Binary64) : Bool := !x.isNaN && !y.isNaN && decide (x.rank = y.rank)

/-- The absolute value as a multiple of the least positive number, 2^-1074. -/
def units (x : Binary64) : Nat :=
  let exponent := x.magnitude / twoTo 52
  let fraction := x.magnitude % twoTo 52
  if exponent = 0 then fraction else (twoTo 52 + fraction) * twoTo (exponent - 1)

/-- The nearest integer to a quotient, and the even one when two are equally near. -/
def nearest (num den : Nat) : Nat :=
  let floor := num / den
  let rest := num % den
  if 2 * rest < den then floor
  else if den < 2 * rest then floor + 1
  else floor + floor % 2

/-- The magnitude nearest to `num / den`. The significand keeps 53 bits, or fewer at the
bottom of the range, and what is too great is infinite. -/
def magnitudeOf (num den : Nat) : Nat :=
  let wide := num * twoTo 1074
  let shift := (wide / den).log2 + 1 - 53
  min infinityMagnitude (shift * twoTo 52 + nearest wide (den * twoTo shift))

def ofRatio (negative : Bool) (num den : Nat) : Binary64 :=
  ofMagnitude negative (magnitudeOf num den)

def ofNat (n : Nat) : Binary64 := ofRatio false n 1

def ofInt (n : Int) : Binary64 := ofRatio (decide (n < 0)) n.natAbs 1

def pow10 (k : Nat) : Binary64 := ofNat (tenTo k)

/-- The exact product, rounded once. -/
def mul (x y : Binary64) : Binary64 :=
  let negative := x.isNegative != y.isNegative
  if x.isNaN || y.isNaN then nan
  else if x.isInfinite || y.isInfinite then
    if x.magnitude = 0 || y.magnitude = 0 then nan else infinity negative
  else ofRatio negative (x.units * y.units) (twoTo 1074 * twoTo 1074)

/-- The exact quotient, rounded once. -/
def div (x y : Binary64) : Binary64 :=
  let negative := x.isNegative != y.isNegative
  if x.isNaN || y.isNaN then nan
  else if x.isInfinite then if y.isInfinite then nan else infinity negative
  else if y.isInfinite then ofMagnitude negative 0
  else if y.magnitude = 0 then if x.magnitude = 0 then nan else infinity negative
  else ofRatio negative x.units y.units

/-- The integer part of a finite number, and zero for what is negative or no number. -/
def natPart (x : Binary64) : Nat :=
  if x.isNaN || x.isNegative then 0 else x.units / twoTo 1074

/-- Moves a number into `[low, high]`; what is no number stays as it is. -/
def clamp (x low high : Binary64) : Binary64 :=
  if x.lt low then low else if high.lt x then high else x

end Binary64

end NotificationRelay
