import NotificationRelay.Json.Fault
import NotificationRelay.Json.Value

/-! Replies, and why a request does not even reach what it asks for. -/
namespace NotificationRelay.Http

inductive Body where
  | text (s : String)
  | json (value : Json)
deriving Repr

structure Reply where
  status : Nat
  contentType : Option String
  body : Body
  origin : Option String
  requestId : Option String
deriving Repr

namespace Reply

def empty (status : Nat) : Reply := ⟨status, none, .text "", none, none⟩

def text (status : Nat) (s : String) : Reply :=
  ⟨status, some "text/plain; charset=utf-8", .text s, none, none⟩

def json (status : Nat) (value : Json) : Reply :=
  ⟨status, some "application/json", .json value, none, none⟩

end Reply

inductive Rejection where
  | path (name : String)
  | mediaType
  | tooLong
  | body (fault : Json.Fault) (source : Json.Bytes)
  | handshakeMethod
  | handshakeConnection
  | handshakeUpgrade
  | handshakeKey
  | handshakeVersion
  | handshakeImpossible
deriving DecidableEq, Repr

namespace Rejection

/-- A body that is JSON but holds something else than wanted is told apart from one that is not
JSON. -/
def status : Rejection → Nat
  | .mediaType => 415
  | .tooLong => 413
  | .body fault _ => if fault.cause.isContent then 422 else 400
  | .handshakeMethod => 405
  | .handshakeImpossible => 426
  | _ => 400

def faultText (fault : Json.Fault) (source : Json.Bytes) : String :=
  (if fault.path.all (· = .unnamed) then "" else Json.pathText fault.path ++ ": ") ++
    fault.toText source

def message : Rejection → String
  | .path name => "Invalid URL: Invalid UTF-8 in `" ++ name ++ "`"
  | .mediaType => "Expected request with `Content-Type: application/json`"
  | .tooLong => "Failed to buffer the request body: length limit exceeded"
  | .body fault source =>
    (if fault.cause.isContent then
      "Failed to deserialize the JSON body into the target type: "
    else "Failed to parse the request body as JSON: ") ++ faultText fault source
  | .handshakeMethod => "Request method must be `GET`"
  | .handshakeConnection => "Connection header did not include 'upgrade'"
  | .handshakeUpgrade => "`Upgrade` header did not include 'websocket'"
  | .handshakeKey => "`Sec-WebSocket-Key` header missing"
  | .handshakeVersion => "`Sec-WebSocket-Version` header did not include '13'"
  | .handshakeImpossible =>
    "WebSocket request couldn't be upgraded since no upgrade state was present"

def reply (r : Rejection) : Reply := .text r.status r.message

end Rejection

end NotificationRelay.Http
