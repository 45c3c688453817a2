import Mathlib
import NotificationRelay.Proofs.Server.Route
import NotificationRelay.Proofs.Server.Sockets
import NotificationRelay.Proofs.Transform.Report

/-! Publishing. A publication comes to one of three ends, and the reply tells which: its channel is
no topic, its payload does not become a message, or the message goes to each session of the topic
that has room for it. Only the last one is seen on the hub. -/
namespace NotificationRelay

open Transform

namespace Hub

namespace Session

variable {s : Session} {topic text : String}

structure HasRoom (s : Session) (topic : String) : Prop where
  hears : s.Hears topic
  room : s.box.waiting.length < s.box.capacity

def put (s : Session) (text : String) : Session :=
  { s with box.waiting := s.box.waiting ++ [text] }

theorem publish_of_room (room : s.HasRoom topic) : s.publish topic text = s.put text := by
  have addressed : s.subscribed ∧ s.box.topic = topic := ⟨room.hears.subscribed, room.hears.topic⟩
  have listening : ¬(!s.box.listening) = true := by simp [room.hears.listening]
  rw [publish, if_pos addressed, if_neg listening, if_neg (Nat.not_le_of_lt room.room), put]

/-- A session that gets nothing stays as it is as long as its owner is there. -/
theorem publish_of_full (full : ¬s.HasRoom topic) :
    (s.publish topic text).box = s.box ∧
      (s.box.listening = true → s.publish topic text = s) := by
  unfold publish
  split
  · rename_i addressed
    split
    · rename_i gone
      refine ⟨rfl, fun listening => ?_⟩
      rw [listening] at gone
      cases gone
    · rename_i listening
      split
      · exact ⟨rfl, fun _ => rfl⟩
      · rename_i space
        have hears : s.Hears topic := ⟨addressed.1, by simpa using listening, addressed.2⟩
        exact absurd ⟨hears, Nat.lt_of_not_le space⟩ full
  · exact ⟨rfl, fun _ => rfl⟩

end Session

/-- The text goes into the mailbox of each session that has room for it, once, and into no other;
`number` counts these sessions. Only owners that are gone lose their subscription. -/
structure Delivers (h h' : Hub) (topic text : String) (number : Nat) : Prop where
  gained : ∀ id s, h.session? id = some s → s.HasRoom topic → h'.session? id = some (s.put text)
  spared : ∀ id s, h.session? id = some s → ¬s.HasRoom topic →
    ∃ s', h'.session? id = some s' ∧ s'.box = s.box ∧ (s.box.listening = true → s' = s)
  unborn : ∀ id, h.session? id = none → h'.session? id = none
  counted : ∃ ids : List Nat, ids.Nodup ∧ ids.length = number ∧
    ∀ id, id ∈ ids ↔ ∃ s, h.session? id = some s ∧ s.HasRoom topic

variable {h : Hub}

theorem mem_taking_iff (sound : h.Sound) (topic : String) (id : Nat) :
    id ∈ h.taking topic ↔ ∃ s, h.session? id = some s ∧ s.HasRoom topic := by
  rw [mem_taking, mem_sessions sound]
  constructor
  · rintro ⟨⟨s, found, subscribed, own⟩, delivered⟩
    obtain ⟨box, held, rfl⟩ := Option.map_eq_some_iff.mp found
    rw [delivery, held] at delivered
    dsimp only at delivered
    split at delivered
    · cases delivered
    split at delivered
    · cases delivered
    · rename_i listening space
      refine ⟨_, found, ⟨subscribed, by simpa using listening, own⟩, ?_⟩
      exact Nat.lt_of_not_le space
  · rintro ⟨s, found, ⟨subscribed, listening, own⟩, room⟩
    refine ⟨⟨s, found, subscribed, own⟩, ?_⟩
    obtain ⟨box, held, rfl⟩ := Option.map_eq_some_iff.mp found
    rw [delivery, held]
    dsimp only at listening room ⊢
    rw [if_neg (by simp [listening]), if_neg (Nat.not_le_of_lt room)]

theorem delivers_publish (sound : h.Sound) (topic text : String) :
    h.Delivers (h.publish topic text).1 topic text (h.taking topic).length where
  gained id s found room := by
    rw [session?_publish sound, found, Session.next, Option.map_some, Session.publish_of_room room]
  spared id s found full := by
    refine ⟨s.publish topic text, ?_, Session.publish_of_full full⟩
    rw [session?_publish sound, found, Session.next, Option.map_some]
  unborn id none := by
    rw [session?_publish sound, none]
    rfl
  counted := ⟨h.taking topic, (sound.distinct topic).filter _, rfl, mem_taking_iff sound topic⟩

end Hub

namespace Server

open Http

/-- The request is one to publish `p`, with a key whose budget is not used up. Its body is `p` in
JSON, is said to be JSON and is within the limit: anything else is refused before it is published. -/
structure Submits (s : Server) (now : Nat) (r : Request) (p : Publication) : Prop where
  method : r.method = "POST"
  path : r.path = "/api/v1/publish"
  passed : (s.authorize now r).2 = .ok ()
  body : s.readPublication r = .ok p

/-- What comes of a publication on a hub, and what the publisher is told. -/
inductive Fate (h : Hub) (p : Publication) (h' : Hub) : Except Fault Receipt → Prop where
  | noTopic {v : Violation} (bad : Topic.parse p.channel = .error v) (hub : h' = h) :
      Fate h p h' (.error (.transform (.topic v)))
  | noMessage {topic : Topic} {failure : Failure} (parsed : Topic.parse p.channel = .ok topic)
      (fails : (ofKind topic.kind 0 p.bytes).value = .error failure)
      (other : ∀ v, failure ≠ .topic v) (hub : h' = h) :
      Fate h p h' (.error (.transform failure))
  | sent {topic : Topic} {message : Notification} (parsed : Topic.parse p.channel = .ok topic)
      (made : (ofKind topic.kind 0 p.bytes).value = .ok message)
      (hub : h' = (h.publish topic.toText message.toJson).1) :
      Fate h p h' (.ok ⟨message.kind, (h.taking topic.toText).length⟩)

variable {s : Server} {now : Nat} {r : Request} {p : Publication}

theorem publish_error {nanos : Nat} {failure : Failure}
    (fails : (s.relay.transform nanos p.channel p.bytes).2.2 = .error failure) :
    (s.publish nanos p).2 = .error (.transform failure) ∧ (s.publish nanos p).1.hub = s.hub := by
  rw [publish]
  dsimp only
  rw [fails]
  exact ⟨rfl, rfl⟩

theorem publish_ok {nanos : Nat} {topic : Topic} {message : Notification}
    (made : (s.relay.transform nanos p.channel p.bytes).2.2 = .ok (topic, message)) :
    (s.publish nanos p).2 = .ok ⟨message.kind, (s.hub.taking topic.toText).length⟩ ∧
      (s.publish nanos p).1.hub = (s.hub.publish topic.toText message.toJson).1 := by
  rw [publish, ← s.hub.delivered_eq topic.toText message.toJson]
  dsimp only
  rw [made]
  exact ⟨rfl, rfl⟩

theorem publish_fate (s : Server) (p : Publication) :
    Fate s.hub p (s.publish 0 p).1.hub (s.publish 0 p).2 := by
  have value : (s.relay.transform 0 p.channel p.bytes).2.2 =
      (onChannel s.relay.settings.transform.excerpt 0 p.channel p.bytes).value := rfl
  cases parsed : Topic.parse p.channel with
  | error v =>
    rw [value_onChannel_error _ _ _ parsed] at value
    obtain ⟨told, hub⟩ := publish_error value
    rw [told]
    exact .noTopic parsed hub
  | ok topic =>
    rw [value_onChannel_ok _ _ _ parsed] at value
    obtain ⟨failure, _, _, cause, fails, _⟩ | ⟨message, _, made, _⟩ :=
      ofKind_cases topic.kind 0 p.bytes
    · have other : ∀ v, failure ≠ .topic v := by cases cause <;> exact nofun
      rw [fails] at value
      obtain ⟨told, hub⟩ := publish_error value
      rw [told]
      exact .noMessage parsed fails other hub
    · rw [made] at value
      obtain ⟨told, hub⟩ := publish_ok value
      rw [told]
      exact .sent parsed made hub

/-- Whatever comes of a publication, sockets and connections are not touched. -/
theorem publish_frame (s : Server) (p : Publication) :
    (s.publish 0 p).1.sockets = s.sockets ∧
      (s.publish 0 p).1.relay.register = s.relay.register := by
  rw [publish]
  dsimp only
  split
  · exact ⟨rfl, rfl⟩
  · refine ⟨rfl, ?_⟩
    unfold showPublished
    split <;> rfl

/-- Only the budget of the key is used. -/
theorem authorize_frame (s : Server) (now : Nat) (r : Request) :
    ∃ budgets, (s.authorize now r).1 = { s with budgets } := by
  unfold authorize
  split
  · exact ⟨s.budgets, rfl⟩
  · split
    · exact ⟨_, rfl⟩
    · exact ⟨s.budgets, rfl⟩

def Tells (reply : Reply) : Except Fault Receipt → Prop
  | .ok receipt => reply.status = 200 ∧ reply.body = .json receipt.toJson
  | .error fault => reply.status = fault.status ∧ reply.body = .json fault.body

theorem answerPublish_tells (body : s.readPublication r = .ok p) :
    (s.answerPublish r).1 = (s.publish 0 p).1 ∧ Tells (s.answerPublish r).2 (s.publish 0 p).2 := by
  rw [answerPublish, body]
  dsimp only
  cases (s.publish 0 p).2 with
  | ok receipt => exact ⟨rfl, rfl, rfl⟩
  | error fault => exact ⟨rfl, rfl, rfl⟩

/-- What is added in the end leaves status and body as they are. -/
theorem Tells.finish {reply : Reply} {result : Except Fault Receipt} (tells : Tells reply result)
    (s : Server) (method : r.method = "POST") : Tells (s.finish r reply) result := by
  have kept : (s.finish r reply).body = reply.body := by
    have other : r.method ≠ "HEAD" := by
      rw [method]
      decide
    rw [Server.finish]
    dsimp only
    rw [if_neg other]
  cases result with
  | ok receipt => exact ⟨tells.1, kept.trans tells.2⟩
  | error fault => exact ⟨tells.1, kept.trans tells.2⟩

/-- The request gets as far as to be published. -/
theorem Submits.answer (submits : s.Submits now r p) :
    let between := (s.authorize now r).1
    ∃ reply, s.answer now r = ((between.publish 0 p).1, .reply reply) ∧
      Tells reply (between.publish 0 p).2 := by
  intro between
  have passed : s.authorize now r = (between, .ok ()) := Prod.ext rfl submits.passed
  have body : between.readPublication r = .ok p := by
    obtain ⟨budgets, spent⟩ := s.authorize_frame now r
    have same : between = { s with budgets } := spent
    rw [same]
    exact submits.body
  obtain ⟨published, tells⟩ := answerPublish_tells body
  have accepted : Route.publish.accepts r.method = true := by
    rw [submits.method]
    rfl
  have path : s.answerPath now r =
      ((between.publish 0 p).1, .reply (between.answerPublish r).2) := by
    rw [answerPath, Route.ofPath_eq_publish.mpr submits.path, ← published]
    simp only [Route.isProtected, if_true, passed, accepted, answerRoute]
  refine ⟨_, ?_, tells.finish (between.publish 0 p).1 submits.method⟩
  rw [Server.answer, if_neg (by rw [submits.method]; decide), path]

theorem Submits.fate (submits : s.Submits now r p) :
    ∃ s' reply result, s.answer now r = (s', .reply reply) ∧ Tells reply result ∧
      Fate s.hub p s'.hub result ∧ s'.sockets = s.sockets ∧
        s'.relay.register = s.relay.register := by
  obtain ⟨reply, answered, tells⟩ := submits.answer
  obtain ⟨budgets, spent⟩ := s.authorize_frame now r
  rw [spent] at answered tells
  obtain ⟨sockets, register⟩ := ({ s with budgets } : Server).publish_frame p
  exact ⟨_, reply, _, answered, tells, publish_fate { s with budgets } p, sockets, register⟩

/-- The reply tells of an error. -/
def Refuses (reply : Reply) (status : Nat) (code : String) : Prop :=
  reply.status = status ∧ ∃ message details, reply.body = .json (.object
    [("error", .object (("code", .text code) :: ("message", .text message) :: details))])

theorem Tells.refuses {reply : Reply} {fault : Fault} (tells : Tells reply (.error fault)) :
    Refuses reply fault.status fault.code :=
  ⟨tells.1, fault.message, fault.details, tells.2⟩

/-- Where a fault of a payload is told from that of a channel. -/
theorem Fault.of_payload {failure : Failure} (other : ∀ v, failure ≠ .topic v) :
    (Fault.transform failure).status = 422 ∧
      (Fault.transform failure).code = "TRANSFORM_ERROR" := by
  cases failure with
  | topic v => exact absurd rfl (other v)
  | _ => exact ⟨rfl, rfl⟩

theorem Fault.status_ne_ok (fault : Fault) : fault.status ≠ 200 := by
  unfold status
  split <;> decide

/-- The hub of a server that has been started stays sound, whatever befalls the server. -/
theorem Attendance.sound_run {settings : ServerSettings} {observed : Bool} {server : Server}
    (made : Server.make settings observed = .ok server) (acts : List Act) :
    (Attendance.run server acts).server.hub.Sound := by
  have inStep : (run server acts).server.InStep (run server acts).held :=
    inStep_fold acts (.make made)
  exact inStep.served.sound

/-- Whatever has befallen a server that has been started, a publication is all or nothing: it goes to
each session of its topic that has room for it, or the hub stays as it is. -/
theorem Submits.settles {settings : ServerSettings} {observed : Bool} {server : Server}
    (made : Server.make settings observed = .ok server) (acts : List Act)
    (submits : (Attendance.run server acts).server.Submits now r p) :
    let s := (Attendance.run server acts).server
    ∃ s' reply, s.answer now r = (s', .reply reply) ∧
      ((reply.status = 200 ∧ ∃ topic message number, Topic.parse p.channel = .ok topic ∧
          (ofKind topic.kind 0 p.bytes).value = .ok message ∧
          s.hub.Delivers s'.hub topic.toText message.toJson number) ∨
        (reply.status ≠ 200 ∧ s'.hub = s.hub)) := by
  intro s
  obtain ⟨s', reply, result, answered, tells, fate, _⟩ := submits.fate
  refine ⟨s', reply, answered, ?_⟩
  cases fate with
  | noTopic bad hub => exact .inr ⟨tells.1 ▸ Fault.status_ne_ok _, hub⟩
  | noMessage parsed fails other hub => exact .inr ⟨tells.1 ▸ Fault.status_ne_ok _, hub⟩
  | @sent topic message parsed made' hub =>
    have delivers := Hub.delivers_publish (Attendance.sound_run made acts) topic.toText message.toJson
    exact .inl ⟨tells.1, topic, message, _, parsed, made', hub ▸ delivers⟩

/-- A publication is refused as one on a bad channel just if its channel is no topic, and as one
with a bad payload just if the payload does not become a message; otherwise it is accepted. Only
then does the hub change: the text of the message goes to each session of the topic that has room
for it, once, and the reply names the kind of the message and the number of these sessions. A
request whose body is not said to be JSON or is too long is no publication. -/
theorem publish_all_or_nothing (sound : s.hub.Sound) (submits : s.Submits now r p) :
    ∃ s' reply, s.answer now r = (s', .reply reply) ∧
      (Refuses reply 400 "INVALID_TOPIC" ↔ ∃ v, Topic.parse p.channel = .error v) ∧
      (Refuses reply 422 "TRANSFORM_ERROR" ↔ ∃ topic failure,
        Topic.parse p.channel = .ok topic ∧
          (ofKind topic.kind 0 p.bytes).value = .error failure) ∧
      (reply.status = 200 ↔ ∃ topic message,
        Topic.parse p.channel = .ok topic ∧ (ofKind topic.kind 0 p.bytes).value = .ok message) ∧
      (∀ topic message, Topic.parse p.channel = .ok topic →
        (ofKind topic.kind 0 p.bytes).value = .ok message →
        ∃ number, s.hub.Delivers s'.hub topic.toText message.toJson number ∧
          reply.body = .json (.object
            [("message_type", .text (Vocabulary.word message.kind)),
              ("delivered", .ofNat number)])) ∧
      (reply.status ≠ 200 → s'.hub = s.hub) ∧
      s'.sockets = s.sockets ∧ s'.relay.register = s.relay.register := by
  obtain ⟨s', reply, result, answered, tells, fate, frame⟩ := submits.fate
  refine ⟨s', reply, answered, ?_⟩
  cases fate with
  | @noTopic v bad hub =>
    have refused : Refuses reply 400 "INVALID_TOPIC" := tells.refuses
    have status := refused.1
    refine ⟨iff_of_true refused ⟨v, bad⟩, ?_, ?_, ?_, fun _ => hub, frame⟩
    · simp [Refuses, status, bad]
    · simp [status, bad]
    · simp [bad]
  | @noMessage topic failure parsed fails other hub =>
    have refused : Refuses reply 422 "TRANSFORM_ERROR" := by
      have told := tells.refuses
      rwa [(Fault.of_payload other).1, (Fault.of_payload other).2] at told
    have status := refused.1
    refine ⟨?_, iff_of_true refused ⟨topic, failure, parsed, fails⟩, ?_, ?_, fun _ => hub, frame⟩
    · simp [Refuses, status, parsed]
    · simp [status, parsed, fails]
    · intro topic' message' parsed' made'
      cases parsed.symm.trans parsed'
      cases fails.symm.trans made'
  | @sent topic message parsed made hub =>
    obtain ⟨status, body⟩ := tells
    refine ⟨?_, ?_, iff_of_true status ⟨topic, message, parsed, made⟩, ?_,
      fun other => absurd status other, frame⟩
    · simp [Refuses, status, parsed]
    · simp [Refuses, status, parsed, made]
    · intro topic' message' parsed' made'
      cases parsed.symm.trans parsed'
      cases made.symm.trans made'
      exact ⟨_, hub ▸ Hub.delivers_publish sound topic.toText message.toJson, body⟩

def attended : Server :=
  let settings := { ServerSettings.default with keys := ["k"] }
  let server : Server := ⟨settings, false, .empty, .make settings.relay, .empty, .empty⟩
  (server.openSocket 0 .job "j1" (some "u")).1

def posting : Request where
  method := "POST"
  target := "/api/v1/publish"
  headers := [("x-api-key", "k"), ("content-type", "application/json")]
  body := Utf8.encode "\x7b\"channel\":\"job:j1:u\",\"payload\":\x7b\"platform\":\"TIKTOK\"\x7d\x7d"
  upgradable := false

def news : Publication := ⟨"job:j1:u", .object [("platform", .text "TIKTOK")]⟩

theorem submits_posting : attended.Submits 1 posting news where
  method := rfl
  path := by cbv
  passed := by
    have key : keyOf posting = some "k" := by decide +kernel
    rw [authorize, key]
    rfl
  body := by
    have media : ((posting.plainHeader? "content-type").bind MediaType.parse).any
        MediaType.isJson := by decide +kernel
    have short : ¬attended.settings.bodyLimit < posting.body.length := by decide +kernel
    have read : Publication.shape.decode posting.body = .ok news := by cbv
    rw [readPublication, media, if_neg (by decide), if_neg short, read]
    rfl

theorem publish_all_or_nothing_posting :
    attended.hub.Sound ∧ attended.Submits 1 posting news ∧
      ∃ s' reply, attended.answer 1 posting = (s', .reply reply) ∧ reply.status = 200 ∧
        (s'.hub.session? 0).map (·.box.waiting) = some ["\x7b\"platform\":\"TIKTOK\"\x7d"] := by
  have hub : attended.hub =
      (Hub.empty.subscribe "job:j1:u" ServerSettings.default.sessionCapacity).1 := rfl
  have sound : attended.hub.Sound := hub ▸ Hub.sound_empty.subscribe _ _
  obtain ⟨s', reply, answered, _, _, accepted, sent, _⟩ :=
    publish_all_or_nothing sound submits_posting
  have parsed : Topic.parse news.channel = .ok ⟨.job, "j1", "u"⟩ := by cbv
  have bytes : news.bytes = Utf8.encode "\x7b\"platform\":\"TIKTOK\"\x7d" := by cbv
  have made : (ofKind .job 0 news.bytes).value = .ok (.job ⟨.tiktok, none, none, none⟩) := by
    rw [bytes]
    cbv
  obtain ⟨number, delivers, _⟩ := sent _ _ parsed made
  refine ⟨sound, submits_posting, s', reply, answered, accepted.mpr ⟨_, _, parsed, made⟩, ?_⟩
  have gained := delivers.gained 0 _ rfl ⟨⟨rfl, rfl, rfl⟩, by decide⟩
  rw [gained]
  rfl

end Server

end NotificationRelay
