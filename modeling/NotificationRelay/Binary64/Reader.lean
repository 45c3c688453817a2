import NotificationRelay.Binary64.Basic

/-! Reading of binary64 numbers from decimal text: the nearest number, rounded once. -/
namespace NotificationRelay.Binary64

/-- The number `digits * 10 ^ exponent`. Far beyond the range the digits do not matter. -/
def ofDecimal (negative : Bool) (digits : Nat) (length : Nat) (exponent : Int) : Binary64 :=
  let point := length + exponent
  if digits = 0 ∨ point < -400 then ofMagnitude negative 0
  else if 400 < exponent then infinity negative
  else ofRatio negative (digits * tenTo exponent.toNat) (tenTo (-exponent).toNat)

def digitsOf (text : List Char) : Nat :=
  text.foldl (fun n c => n * 10 + (c.toNat - 48)) 0

def splitSign : List Char → Bool × List Char
  | '+' :: rest => (false, rest)
  | '-' :: rest => (true, rest)
  | rest => (false, rest)

def exponentOf : List Char → Option Int
  | [] => some 0
  | mark :: rest =>
    let (negative, digits) := splitSign rest
    if (mark = 'e' || mark = 'E') && !digits.isEmpty && digits.all Char.isDigit then
      some (if negative then -(digitsOf digits : Int) else digitsOf digits)
    else none

def ofDigits (negative : Bool) (text : List Char) : Option Binary64 :=
  let whole := text.takeWhile Char.isDigit
  let rest := text.dropWhile Char.isDigit
  let (fraction, rest) := match rest with
    | '.' :: rest => (rest.takeWhile Char.isDigit, rest.dropWhile Char.isDigit)
    | rest => ([], rest)
  let digits := whole ++ fraction
  if digits.isEmpty then none
  else (exponentOf rest).map fun exponent =>
    ofDecimal negative (digitsOf digits) digits.length (exponent - fraction.length)

def ofText? (text : String) : Option Binary64 :=
  let (negative, unsigned) := splitSign text.toList
  match String.ofList (unsigned.map Char.toLower) with
  | "inf" | "infinity" => some (infinity negative)
  | "nan" => some nan
  | _ => ofDigits negative unsigned

end NotificationRelay.Binary64
