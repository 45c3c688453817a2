import NotificationRelay.Http.MediaType
import NotificationRelay.Http.Percent
import NotificationRelay.Http.Reply
import NotificationRelay.Http.Request
import NotificationRelay.Server.Publish
import NotificationRelay.Server.Route
import NotificationRelay.Server.Session
import NotificationRelay.Shape.Reader

/-! Answers to requests. -/
namespace NotificationRelay

def Register.Stats.toJson (s : Register.Stats) : Json :=
  .object
    [("tracked_users", .ofNat s.users), ("total_connections", .ofNat s.connections),
      ("project_entries", .ofNat s.projects), ("job_entries", .ofNat s.jobs),
      ("rate_window_users", .ofNat s.windows), ("rate_window_entries", .ofNat s.attempts)]

def Hub.Stats.toJson (s : Hub.Stats) : Json :=
  .object [("topics", .ofNat s.topics), ("sessions", .ofNat s.sessions)]

namespace Server

open Http

def version : String := "0.1.0"

def serviceName : String := "relay-server"

inductive Answer where
  | reply (r : Reply)
  | socket (session : Nat)
deriving Repr

def faultReply (f : Fault) : Reply := .json f.status f.body

def bareKey (value : String) : String :=
  let word := "Bearer ".toList
  if word.isPrefixOf value.toList then String.ofList (value.toList.drop word.length) else value

/-- The key of a request. The second header counts only where the first one is missing. -/
def keyOf (r : Request) : Option String :=
  ((r.header? "x-api-key" <|> r.header? "authorization").filter isPlain).map bareKey

def authorize (s : Server) (now : Nat) (r : Request) : Server × Except Fault Unit :=
  match keyOf r with
  | none =>
    (s, .error (.authentication
      "API key required. Provide it in 'X-API-Key' or 'Authorization: Bearer <key>' header"))
  | some key =>
    if s.isKey key then
      let (s, granted) := s.spend now key
      (s, if granted then .ok () else .error .tooManyRequests)
    else (s, .error (.authentication "Invalid API key"))

def infoReply : Reply :=
  .json 200 (.object
    [("name", .text "Progress Relay"), ("version", .text version), ("api_version", .text "v1"),
      ("endpoints", .list (Route.shown.map .text))])

def healthReply : Reply :=
  .json 200 (.object [("status", .text "healthy"), ("service", .text serviceName)])

def readyReply (s : Server) : Reply :=
  .json 200 (.object
    [("status", .text "ready"), ("service", .text serviceName),
      ("components", .object
        [("admission", .text "ready"), ("transform", .text "ready"),
          ("hub", s.hub.stats.toJson)])])

def metricsReply (s : Server) : Reply :=
  if !s.settings.metrics then faultReply .notFound
  else if s.observed then
    { Reply.text 200 ("".intercalate (s.relay.exported.lines.map (· ++ "\n"))) with
      contentType := some "text/plain; version=0.0.4" }
  else .json 200 s.relay.ledger.snapshot

def statsReply (s : Server) : Reply :=
  .json 200 (.object
    [("server", .object [("version", .text version)]),
      ("admission", s.relay.register.stats.toJson),
      ("transform", s.relay.ledger.snapshot),
      ("hub", s.hub.stats.toJson)])

def readPublication (s : Server) (r : Request) : Except Rejection Publication :=
  if !((r.plainHeader? "content-type").bind MediaType.parse).any MediaType.isJson then
    .error .mediaType
  else if s.settings.bodyLimit < r.body.length then .error .tooLong
  else (Publication.shape.decode r.body).mapError fun fault => .body fault r.body

def answerPublish (s : Server) (r : Request) : Server × Reply :=
  match s.readPublication r with
  | .error rejection => (s, rejection.reply)
  | .ok publication =>
    let (s, result) := s.publish 0 publication
    (s, match result with
      | .ok receipt => .json 200 receipt.toJson
      | .error fault => faultReply fault)

def checkHandshake (r : Request) : Except Rejection Unit := do
  if r.method ≠ "GET" then throw .handshakeMethod
  if !r.mentions "connection" "upgrade" then throw .handshakeConnection
  if !r.hasHeader "upgrade" "websocket" then throw .handshakeUpgrade
  if (r.header? "sec-websocket-key").isNone then throw .handshakeKey
  if !r.hasHeader "sec-websocket-version" "13" then throw .handshakeVersion
  if !r.upgradable then throw .handshakeImpossible

def answerSocket (s : Server) (now : Nat) (kind : Topic.Kind) (resource : String)
    (r : Request) : Server × Answer :=
  match Percent.decode resource with
  | none => (s, .reply (Rejection.path (Route.parameter kind)).reply)
  | some resource =>
    match checkHandshake r with
    | .error rejection => (s, .reply rejection.reply)
    | .ok () =>
      let (s, result) := s.openSocket now kind resource (r.plainHeader? userHeader)
      (s, match result with
        | .ok session => .socket session
        | .error fault => .reply (faultReply fault))

def answerRoute (s : Server) (now : Nat) (r : Request) : Route → Server × Answer
  | .info => (s, .reply infoReply)
  | .health => (s, .reply healthReply)
  | .ready => (s, .reply s.readyReply)
  | .metrics => (s, .reply s.metricsReply)
  | .stats => (s, .reply s.statsReply)
  | .publish =>
    let (s, reply) := s.answerPublish r
    (s, .reply reply)
  | .socket kind resource => s.answerSocket now kind resource r

/-- The key is asked for first, even where the method is wrong. -/
def answerPath (s : Server) (now : Nat) (r : Request) : Server × Answer :=
  match Route.ofPath r.path with
  | none => (s, .reply (faultReply .notFound))
  | some route =>
    let (s, passed) := if route.isProtected then s.authorize now r else (s, .ok ())
    match passed with
    | .error fault => (s, .reply (faultReply fault))
    | .ok () =>
      if route.accepts r.method then s.answerRoute now r route else (s, .reply (.empty 405))

/-- What every reply says besides. Where only the head is asked for there is no body. -/
def finish (s : Server) (r : Request) (reply : Reply) : Reply :=
  { reply with
    body := if r.method = "HEAD" then .text "" else reply.body
    origin := if s.settings.anyOrigin then some "*" else none
    requestId := r.plainHeader? "x-request-id" }

/-- Answers a request. What may be asked at all is asked by a method of its own, which is answered
for every path. -/
def answer (s : Server) (now : Nat) (r : Request) : Server × Answer :=
  if r.method = "OPTIONS" then (s, .reply (s.finish r (.empty 200)))
  else
    match s.answerPath now r with
    | (s, .reply reply) => (s, .reply (s.finish r reply))
    | (s, .socket session) => (s, .socket session)

end Server

end NotificationRelay
