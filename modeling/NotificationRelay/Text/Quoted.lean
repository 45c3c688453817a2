import NotificationRelay.Text.Hidden

/-! Quoted text: the quote, the backslash and what cannot be seen are escaped. -/
namespace NotificationRelay.Text

def escapedIn (quote c : Char) : List Char :=
  if c = quote ∨ c = '\\' then ['\\', c]
  else if c = '\n' then ['\\', 'n']
  else if c = '\r' then ['\\', 'r']
  else if c = '\t' then ['\\', 't']
  else if c.toNat = 0 then ['\\', '0']
  else if isHidden c then ['\\', 'u', '\x7b'] ++ Nat.toDigits 16 c.toNat ++ ['\x7d']
  else [c]

def quoted (s : String) : String :=
  String.ofList ('"' :: s.toList.flatMap (escapedIn '"') ++ ['"'])

def quotedChar (c : Char) : String := String.ofList ('\'' :: escapedIn '\'' c ++ ['\''])

end NotificationRelay.Text
