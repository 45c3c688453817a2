import NotificationRelay.Server.Basic

/-! Publishing: a payload is transformed, and the notification goes to all sessions of its topic. -/
namespace NotificationRelay.Server

structure Publication where
  channel : String
  payload : Json
deriving Repr

namespace Publication

def shape : Shape Publication :=
  .record "PublishRequest"
    (.required "channel" .text <| .required "payload" .tree .none)
    (fun (channel, payload, ()) => ⟨channel, payload⟩)
    (fun p => (p.channel, p.payload, ()))

def bytes (p : Publication) : Json.Bytes :=
  match p.payload with
  | .text raw => Utf8.encode raw
  | value => Utf8.encode value.printCanonical

end Publication

structure Receipt where
  kind : MessageKind
  delivered : Nat
deriving DecidableEq, Repr

def Receipt.toJson (r : Receipt) : Json :=
  .object [("message_type", .text (Vocabulary.word r.kind)), ("delivered", .ofNat r.delivered)]

def showPublished (r : Relay) (published : Option Hub.Published) : Relay :=
  match published with
  | none => r
  | some p =>
    let dropped := if p.dropped = 0 then r.exported else r.exported.add .dropped p.dropped
    { r with exported := dropped.add .delivered p.delivered }

def publish (s : Server) (nanos : Nat) (p : Publication) : Server × Except Fault Receipt :=
  let (relay, _, outcome) := s.relay.transform nanos p.channel p.bytes
  match outcome with
  | .error failure => ({ s with relay }, .error (.transform failure))
  | .ok (topic, notification) =>
    let (hub, published) := s.hub.publish topic.toText notification.toJson
    let delivered := (published.map (·.delivered)).getD 0
    ({ s with hub, relay := showPublished relay published }, .ok ⟨notification.kind, delivered⟩)

end NotificationRelay.Server
