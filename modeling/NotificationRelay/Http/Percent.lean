import NotificationRelay.Text.Digits
import NotificationRelay.Text.Utf8

/-! Texts in paths: bytes that are not plain are written as a percent sign and two hexadecimal
digits. -/
namespace NotificationRelay.Http.Percent

/-- A percent sign without two digits behind it stands for itself. -/
def bytes : List Char → List UInt8
  | [] => []
  | '%' :: high :: low :: rest =>
    match Text.digitValue high, Text.digitValue low with
    | some h, some l => (h * 16 + l).toUInt8 :: bytes rest
    | _, _ => String.utf8EncodeChar '%' ++ bytes (high :: low :: rest)
  | c :: rest => String.utf8EncodeChar c ++ bytes rest

/-- The text that stands in a path, if it is one. -/
def decode (s : String) : Option String := (Utf8.decode? (bytes s.toList)).map String.ofList

def isPlain (b : UInt8) : Bool := b.toNat < 128 && (Char.ofNat b.toNat).isAlphanum

def digit (n : Nat) : Char := (Nat.digitChar n).toUpper

def encode (s : String) : String :=
  String.ofList ((Utf8.encode s).flatMap fun b =>
    if isPlain b then [Char.ofNat b.toNat] else ['%', digit (b.toNat / 16), digit (b.toNat % 16)])

end NotificationRelay.Http.Percent
