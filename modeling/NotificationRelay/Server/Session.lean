import NotificationRelay.Server.Basic

/-! Sessions: a socket that is open counts against the quotas of its user and is subscribed to its
topic, and one that is not does neither. -/
namespace NotificationRelay.Server

def connectionOf (t : Topic) : Connection :=
  match t.kind with
  | .project => ⟨t.user, some t.resource, none⟩
  | .job => ⟨t.user, none, some t.resource⟩

def userHeader : String := "x-user-id"

def showSessions (s : Server) : Server :=
  { s with relay.exported := s.relay.exported.insert .sessions s.sockets.size }

def openSocket (s : Server) (now : Nat) (kind : Topic.Kind) (resource : String)
    (user : Option String) : Server × Except Fault Nat :=
  match user with
  | none => (s, .error (.authentication ("'" ++ userHeader ++ "' header required")))
  | some user =>
    match Topic.make kind resource user with
    | .error violation => (s, .error (.badRequest violation.message))
    | .ok topic =>
      let (relay, result) := s.relay.connect now (connectionOf topic)
      match result with
      | .error refusal => ({ s with relay }, .error (.refused refusal))
      | .ok () =>
        let (hub, id) := s.hub.subscribe topic.toText s.settings.sessionCapacity
        let sockets := s.sockets.insert id ⟨topic, []⟩
        (showSessions { s with relay, hub, sockets }, .ok id)

def closeSocket (s : Server) (id : Nat) : Server :=
  match s.sockets.get? id with
  | none => s
  | some socket =>
    let (relay, _) := s.relay.release (connectionOf socket.topic)
    let hub := (s.hub.unsubscribe socket.topic.toText id).leave id
    showSessions { s with relay, hub, sockets := s.sockets.erase id }

def forward (s : Server) (id : Nat) : Server :=
  let (hub, texts) := s.hub.drain id
  let sockets := s.sockets.alter id fun socket? => socket?.map fun socket =>
    { socket with sent := socket.sent ++ texts }
  { s with hub, sockets }

def forwardAll (s : Server) : Server := (s.sockets.entries.map (·.1)).foldl forward s

def readSocket (s : Server) (id : Nat) : Server × Option String :=
  match s.sockets.get? id with
  | none => (s, none)
  | some socket =>
    match socket.sent with
    | [] => (s, none)
    | text :: rest =>
      ({ s with sockets := s.sockets.insert id { socket with sent := rest } }, some text)

end NotificationRelay.Server
