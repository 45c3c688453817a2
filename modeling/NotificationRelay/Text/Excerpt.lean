import NotificationRelay.Text.Blank
import NotificationRelay.Text.Utf8

/-! Excerpts of payloads. -/
namespace NotificationRelay.Text

def elision : List Char := " ... ".toList

def looksNested (text : List Char) : Bool :=
  match trimStart text with
  | c :: _ => c = '\x7b' || c = '['
  | [] => false

/-- At most `limit` characters of a text. One that looks like JSON keeps both ends, so that its
outline can be seen; any other keeps its beginning. -/
def shorten (limit : Nat) (text : List Char) : List Char :=
  if text.length ≤ limit then text
  else if looksNested text && decide (elision.length + 2 < limit) then
    let budget := limit - elision.length
    let head := budget / 2
    let tail := budget - head
    text.take head ++ elision ++ text.drop (text.length - tail)
  else text.take (limit - 3) ++ ['.', '.', '.']

def excerpt (limit : Nat) (payload : List UInt8) : String :=
  String.ofList (shorten limit (Utf8.lossy payload))

end NotificationRelay.Text
