import NotificationRelay.Json.Number

/-! Reading of JSON text as a tree. At most 127 arrays and objects may be open at once. -/
namespace NotificationRelay.Json

namespace Scan

def scalar (b : UInt8) (rest : Bytes) : Except Fault (Step Json (rest.length + 1)) :=
  match letter b with
  | 'n' => (literal ['u', 'l', 'l'] rest).map (·.map fun _ => .null)
  | 't' => (literal ['r', 'u', 'e'] rest).map (·.map fun _ => .flag true)
  | 'f' => (literal ['a', 'l', 's', 'e'] rest).map (·.map fun _ => .flag false)
  | '"' => (text rest).map fun step => (step.map Json.text).within (by omega)
  | '-' => (number (b :: rest)).map (·.map Json.number)
  | _ =>
    if isDigitByte b then (number (b :: rest)).map (·.map Json.number)
    else fault .expectedValue rest

/-- The value that a text starts with. What `inner` reads may be inside it; without `inner` it must
be neither array nor object. -/
def valueAround (inner : Option ((bytes : Bytes) → Except Fault (Step Json bytes.length)))
    (bytes : Bytes) : Except Fault (Step Json bytes.length) :=
  match found : skipBlank bytes with
  | [] => fault .unfinishedValue []
  | b :: rest =>
    if letter b = '[' then
      match inner with
      | none => fault .tooDeep rest
      | some inner =>
        (items inner 0 rest).map fun step =>
          (step.map Json.list).within (length_le_of_skipBlank found)
    else if letter b = '\x7b' then
      match inner with
      | none => fault .tooDeep rest
      | some inner =>
        let visit (read : List (String × Json)) (key : String) (bytes : Bytes) :=
          (memberValue inner key bytes).map (·.map fun item => (key, item) :: read)
        (members visit true [] rest).map fun step =>
          (step.map fun read => Json.object read.reverse).within (length_le_of_skipBlank found)
    else (scalar b rest).map (·.within (length_lt_of_skipBlank found))

def value : (depth : Nat) → (bytes : Bytes) → Except Fault (Step Json bytes.length)
  | 0 => valueAround none
  | depth + 1 => valueAround (some (value depth))

end Scan

def depthLimit : Nat := 127

def read (source : Bytes) : Except Fault Json :=
  match Scan.value depthLimit source with
  | .error f => .error f
  | .ok step =>
    match Scan.finished step.rest with
    | .error f => .error f
    | .ok () => .ok step.value

end NotificationRelay.Json
