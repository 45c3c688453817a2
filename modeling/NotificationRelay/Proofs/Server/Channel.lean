import NotificationRelay.Proofs.Server.Publish
import NotificationRelay.Proofs.Topic.Grammar

/-! Sockets and publishers meet on a channel. The hub knows a topic by its text only, which a socket
makes of a kind and two identifiers, and a publisher gives as it is. -/
namespace NotificationRelay

namespace Server

open Transform

variable {s : Server}

/-- A socket that opens is subscribed to the text of the topic that its parts make. -/
theorem openSocket_key {now : Nat} {kind : Topic.Kind} {resource : String} {user? : Option String}
    {id : Nat} (opened : (s.openSocket now kind resource user?).2 = .ok id) :
    ∃ user topic, user? = some user ∧ Topic.make kind resource user = .ok topic ∧
      (s.openSocket now kind resource user?).1.hub =
        (s.hub.subscribe topic.toText s.settings.sessionCapacity).1 := by
  obtain ⟨fault, refused, _⟩ | ⟨user, s', rfl, _, same, _, _, hub⟩ :=
    s.openSocket_effect now kind resource user?
  · rw [refused] at opened
    cases opened
  · have made := ((@openSocket_ok_iff s ⟨kind, resource, user⟩ now).mp ⟨id, opened⟩).1
    rw [same]
    exact ⟨user, _, rfl, made, hub⟩

/-- A publication that is accepted is published on the text of the topic that its channel is. -/
theorem publish_key {nanos : Nat} {p : Publication} {receipt : Receipt}
    (accepted : (s.publish nanos p).2 = .ok receipt) :
    ∃ topic text, Topic.parse p.channel = .ok topic ∧
      (s.publish nanos p).1.hub = (s.hub.publish topic.toText text).1 := by
  have value : (s.relay.transform nanos p.channel p.bytes).2.2 =
      (onChannel s.relay.settings.transform.excerpt nanos p.channel p.bytes).value := rfl
  cases parsed : Topic.parse p.channel with
  | error v =>
    rw [value_onChannel_error _ _ _ parsed] at value
    rw [(publish_error value).1] at accepted
    cases accepted
  | ok topic =>
    rw [value_onChannel_ok _ _ _ parsed] at value
    cases made : (ofKind topic.kind nanos p.bytes).value with
    | error failure =>
      rw [made] at value
      rw [(publish_error value).1] at accepted
      cases accepted
    | ok message =>
      rw [made] at value
      exact ⟨topic, message.toJson, rfl, (publish_ok value).2⟩

/-- A channel is a topic just if it is a kind, an identifier and another one, with colons between
them. The topic is written as that channel, no other topic is, and a topic can be made of parts just
if it can be read from them with colons between them. So a socket is subscribed to its parts with
colons between them, a text is published on its channel as it is, and these are one topic of the hub
just if the parts and the channel are one topic. -/
theorem channel_canonical :
    (∀ channel, (∃ topic, Topic.parse channel = .ok topic) ↔ Topic.IsChannel channel) ∧
      (∀ channel topic, Topic.parse channel = .ok topic → topic.toText = channel) ∧
      (∀ kind resource user topic, Topic.make kind resource user = .ok topic ↔
        Topic.parse (Vocabulary.word kind ++ ":" ++ resource ++ ":" ++ user) = .ok topic) ∧
      (∀ channel topic other, Topic.parse channel = .ok topic → other.toText = channel →
        other = topic) ∧
      ∀ (s : Server) (now : Nat) (kind : Topic.Kind) (resource user : String) (id : Nat),
        (s.openSocket now kind resource (some user)).2 = .ok id →
        let key := Vocabulary.word kind ++ ":" ++ resource ++ ":" ++ user
        (s.openSocket now kind resource (some user)).1.hub =
            (s.hub.subscribe key s.settings.sessionCapacity).1 ∧
          ∀ (s' : Server) (nanos : Nat) (p : Publication) (receipt : Receipt),
            (s'.publish nanos p).2 = .ok receipt →
            (∃ text, (s'.publish nanos p).1.hub = (s'.hub.publish p.channel text).1) ∧
              (p.channel = key ↔ Topic.parse p.channel = Topic.make kind resource user) := by
  refine ⟨Topic.isChannel_iff, fun channel topic parsed => ?_,
    fun kind resource user topic => Topic.make_iff_parse, fun channel topic other parsed same => ?_,
    fun s now kind resource user id opened => ?_⟩
  · exact (Topic.parse_eq_ok_iff.mp parsed).1.symm
  · obtain ⟨rfl, first, second⟩ := Topic.parse_eq_ok_iff.mp parsed
    exact Topic.eq_of_toText_eq first second same
  intro key
  obtain ⟨_, topic, given, made, subscribed⟩ := openSocket_key opened
  cases given
  obtain ⟨rfl, _, _⟩ := Topic.make_eq_ok_iff.mp made
  refine ⟨subscribed, fun s' nanos p receipt accepted => ?_⟩
  obtain ⟨other, text, parsed, published⟩ := publish_key accepted
  have channel : p.channel = other.toText := (Topic.parse_eq_ok_iff.mp parsed).1
  refine ⟨⟨text, ?_⟩, fun same => ?_, fun same => ?_⟩
  · rw [channel]
    exact published
  · rw [same, made]
    exact Topic.make_iff_parse.mp made
  · rw [parsed, made] at same
    cases same
    exact channel

/-- A session listens to a job, and there is news of it. -/
theorem channel_canonical_news :
    let settings := { ServerSettings.default with keys := ["k"] }
    let server : Server := ⟨settings, false, .empty, .make settings.relay, .empty, .empty⟩
    let topic : Topic := ⟨.job, "j1", "u"⟩
    Topic.parse news.channel = .ok topic ∧ topic.toText = news.channel ∧
      (server.openSocket 0 .job "j1" (some "u")).2 = .ok 0 ∧
      attended.hub = (Hub.empty.subscribe news.channel settings.sessionCapacity).1 ∧
      (attended.publish 0 news).2 = .ok ⟨.job, 1⟩ ∧
      ∃ text, (attended.publish 0 news).1.hub = (attended.hub.publish news.channel text).1 := by
  intro settings server topic
  obtain ⟨_, canonical, _, _, meets⟩ := channel_canonical
  have parsed : Topic.parse news.channel = .ok topic := by cbv
  have opened : (server.openSocket 0 .job "j1" (some "u")).2 = .ok 0 := rfl
  have bytes : news.bytes = Utf8.encode "\x7b\"platform\":\"TIKTOK\"\x7d" := by cbv
  have made : (ofKind .job 0 news.bytes).value = .ok (.job ⟨.tiktok, none, none, none⟩) := by
    rw [bytes]
    cbv
  have accepted : (attended.publish 0 news).2 = .ok ⟨.job, 1⟩ := by
    have value : (attended.relay.transform 0 news.channel news.bytes).2.2 =
        (ofKind .job 0 news.bytes).value.map fun message => (topic, message) :=
      value_onChannel_ok _ _ _ parsed
    rw [made] at value
    exact (publish_ok value).1
  obtain ⟨subscribed, publishes⟩ := meets server 0 .job "j1" "u" 0 opened
  obtain ⟨published, _⟩ := publishes attended 0 news _ accepted
  exact ⟨parsed, canonical _ _ parsed, opened, subscribed, accepted, published⟩

end Server

end NotificationRelay
