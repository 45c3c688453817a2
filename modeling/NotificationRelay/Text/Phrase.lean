/-! Search for phrases of ASCII letters without regard to case. -/
namespace NotificationRelay.Text

/-- Lower case as far as ASCII phrases can tell. Beside `A` to `Z` only two characters have an
ASCII letter in their lower case: U+0130, which also leaves a combining dot, and U+212A. -/
def lowered (c : Char) : List Char :=
  if c.toNat = 0x130 then ['i', Char.ofNat 0x307]
  else if c.toNat = 0x212A then ['k']
  else [c.toLower]

def mentions (phrase : List Char) : List Char → Bool
  | [] => phrase.isEmpty
  | c :: rest => phrase.isPrefixOf (c :: rest) || mentions phrase rest

def holds (phrase : String) (text : String) : Bool :=
  mentions phrase.toList (text.toList.flatMap lowered)

end NotificationRelay.Text
