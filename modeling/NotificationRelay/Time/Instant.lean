import NotificationRelay.Time.Calendar

/-! Instants in UTC and their RFC 3339 text. -/
namespace NotificationRelay.Time

/-- An instant in UTC. A billion nanoseconds or more stand for an extra second after `second`. -/
structure Instant where
  day : Int
  second : Nat
  nano : Nat
deriving DecidableEq, Repr, Inhabited

def Instant.ofLocal (day : Int) (second nano : Nat) (offset : Int) : Instant :=
  let shifted : Int := second - offset
  ⟨day + shifted / 86400, (shifted % 86400).toNat, nano⟩

/-- Digits of `n`, padded with zeros to `width`. -/
def padded (width n : Nat) : List Char :=
  let digits := Nat.toDigits 10 n
  List.replicate (width - digits.length) '0' ++ digits

/-- Four digits, and a sign before them outside the years 0 to 9999. -/
def yearText (year : Int) : List Char :=
  if 0 ≤ year ∧ year ≤ 9999 then padded 4 year.toNat
  else (if year < 0 then '-' else '+') :: padded 4 year.natAbs

/-- None, three, six or nine digits: the fewest groups that lose nothing. -/
def fractionText (nano : Nat) : List Char :=
  if nano = 0 then []
  else if nano % 1000000 = 0 then '.' :: padded 3 (nano / 1000000)
  else if nano % 1000 = 0 then '.' :: padded 6 (nano / 1000)
  else '.' :: padded 9 nano

def Instant.toText (t : Instant) : String :=
  let date := Date.ofDayNumber t.day
  let leap := if 1000000000 ≤ t.nano then 1 else 0
  String.ofList (yearText date.year ++ '-' :: padded 2 date.month ++ '-' :: padded 2 date.day ++
    'T' :: padded 2 (t.second / 3600) ++ ':' :: padded 2 (t.second / 60 % 60) ++
    ':' :: padded 2 (t.second % 60 + leap) ++ fractionText (t.nano % 1000000000) ++ ['Z'])

end NotificationRelay.Time
