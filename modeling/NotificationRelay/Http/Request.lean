/-! Requests. -/
namespace NotificationRelay.Http

structure Request where
  method : String
  /-- The path, with what follows a question mark. -/
  target : String
  headers : List (String × String)
  body : List UInt8
  upgradable : Bool
deriving Repr

/-- Names of headers are the same in either case. -/
def sameName (a b : String) : Bool := a.toLower = b.toLower

def isPlain (value : String) : Bool :=
  value.toList.all fun c => c = '\t' || (0x20 ≤ c.toNat && c.toNat < 0x7F)

namespace Request

def path (r : Request) : String :=
  String.ofList (r.target.toList.takeWhile fun c => c != '?' && c != '#')

def header? (r : Request) (name : String) : Option String :=
  (r.headers.find? fun h => sameName h.1 name).map (·.2)

/-- The first header of the name, if it is text. -/
def plainHeader? (r : Request) (name : String) : Option String := (r.header? name).filter isPlain

def hasHeader (r : Request) (name value : String) : Bool :=
  (r.header? name).any fun v => v.toLower = value

def mentions (r : Request) (name word : String) : Bool :=
  (r.header? name).any fun v => (v.toLower.splitOn word).length ≠ 1

end Request

end NotificationRelay.Http
