import NotificationRelay.Store

/-! The hub: sessions subscribe to topics, and each text published on a topic goes into the
mailboxes of its sessions. A mailbox outlives the subscription until its owner has read it. -/
namespace NotificationRelay

structure Mailbox where
  topic : String
  capacity : Nat
  /-- Texts that wait, oldest first. -/
  waiting : List String
  listening : Bool
deriving DecidableEq, Repr

structure Hub where
  nextId : Nat
  /-- The subscribed sessions of each topic that has any. -/
  topics : Store String (List Nat)
  mailboxes : Store Nat Mailbox

namespace Hub

def empty : Hub := ⟨0, .empty, .empty⟩

def sessions (h : Hub) (topic : String) : List Nat := (h.topics.get? topic).getD []

/-- Subscribes a new session, whose mailbox takes at least one text. -/
def subscribe (h : Hub) (topic : String) (capacity : Nat) : Hub × Nat :=
  ({ nextId := h.nextId + 1
     topics := h.topics.insert topic (h.sessions topic ++ [h.nextId])
     mailboxes := h.mailboxes.insert h.nextId ⟨topic, max capacity 1, [], true⟩ }, h.nextId)

/-- A topic without sessions is not kept. -/
def keepSessions (sessions : List Nat) : Option (List Nat) :=
  if sessions.isEmpty then none else some sessions

def remove (h : Hub) (topic : String) (gone : Nat → Bool) : Hub :=
  { h with topics := h.topics.alter topic fun sessions =>
      sessions.bind fun ids => keepSessions (ids.filter fun id => !gone id) }

def unsubscribe (h : Hub) (topic : String) (id : Nat) : Hub := h.remove topic (· = id)

inductive Delivery where
  | delivered
  | dropped
  | closed
deriving DecidableEq, Repr

def delivery (h : Hub) (id : Nat) : Delivery :=
  match h.mailboxes.get? id with
  | some box =>
    if !box.listening then .closed
    else if box.capacity ≤ box.waiting.length then .dropped
    else .delivered
  | none => .closed

def put (text : String) (h : Hub) (id : Nat) : Hub :=
  { h with mailboxes := h.mailboxes.alter id fun box? => box?.map fun box =>
      { box with waiting := box.waiting ++ [text] } }

structure Published where
  delivered : Nat
  dropped : Nat
deriving DecidableEq, Repr

/-- Publishes a text on a topic, and tells how many sessions took it and how many had no room. A
session whose owner is gone is unsubscribed. None if the topic has no session. -/
def publish (h : Hub) (topic text : String) : Hub × Option Published :=
  match h.topics.get? topic with
  | none => (h, none)
  | some ids =>
    let taking := ids.filter fun id => h.delivery id = .delivered
    let full := ids.filter fun id => h.delivery id = .dropped
    ((taking.foldl (put text) h).remove topic fun id => h.delivery id = .closed,
      some ⟨taking.length, full.length⟩)

inductive Received where
  | text (text : String)
  | nothing
  | disconnected
deriving DecidableEq, Repr

def isSubscribed (h : Hub) (id : Nat) : Bool :=
  match h.mailboxes.get? id with
  | some box => (h.sessions box.topic).contains id
  | none => false

def receive (h : Hub) (id : Nat) : Hub × Received :=
  match h.mailboxes.get? id with
  | some box =>
    match box.waiting with
    | text :: rest =>
      ({ h with mailboxes := h.mailboxes.insert id { box with waiting := rest } }, .text text)
    | [] => (h, if h.isSubscribed id then .nothing else .disconnected)
  | none => (h, .disconnected)

def drain (h : Hub) (id : Nat) : Hub × List String :=
  match h.mailboxes.get? id with
  | some box =>
    ({ h with mailboxes := h.mailboxes.insert id { box with waiting := [] } }, box.waiting)
  | none => (h, [])

def leave (h : Hub) (id : Nat) : Hub :=
  { h with mailboxes := h.mailboxes.alter id fun box? => box?.map fun box =>
      { box with waiting := [], listening := false } }

def count (h : Hub) (topic : String) : Nat := (h.sessions topic).length

structure Stats where
  topics : Nat
  sessions : Nat
deriving DecidableEq, Repr

def stats (h : Hub) : Stats := ⟨h.topics.size, total (h.topics.values.map List.length)⟩

end Hub

end NotificationRelay
