import NotificationRelay.Proofs.Admission.Occupancy
import NotificationRelay.Proofs.Topic.Grammar
import NotificationRelay.Server.Answer

/-! What an answer does to the sockets of a server, its quotas and its hub: nothing at all, or a text
is published, or a socket opens. -/
namespace NotificationRelay

namespace Server

open Http

/-- The sockets, the quotas and the hub are the same. -/
structure Still (s s' : Server) : Prop where
  sockets : s'.sockets = s.sockets
  quotas : s'.relay.register.opened = s.relay.register.opened
  hub : s'.hub = s.hub

theorem Still.refl (s : Server) : s.Still s := ⟨rfl, rfl, rfl⟩

def topicAsked? (r : Request) : Option Topic :=
  match Route.ofPath r.path with
  | some (.socket kind resource) => do
    return ⟨kind, ← Percent.decode resource, ← r.plainHeader? userHeader⟩
  | _ => none

inductive Effect (s : Server) (r : Request) : Server × Answer → Prop
  | replied {s' : Server} (still : s.Still s') (reply : Reply) : Effect s r (s', .reply reply)
  | published {s' : Server} (topic text : String)
      (route : Route.ofPath r.path = some .publish)
      (sockets : s'.sockets = s.sockets)
      (quotas : s'.relay.register.opened = s.relay.register.opened)
      (hub : s'.hub = (s.hub.publish topic text).1) (reply : Reply) : Effect s r (s', .reply reply)
  | opened {s' : Server} (topic : Topic) (capacity : Nat)
      (asked : topicAsked? r = some topic) (handshake : checkHandshake r = .ok ())
      (named : topic.resource ≠ "")
      (sockets : s'.sockets = s.sockets.insert s.hub.nextId ⟨topic, []⟩)
      (quotas : s'.relay.register.opened = (s.relay.register.enter (connectionOf topic)).opened)
      (hub : s'.hub = (s.hub.subscribe topic.toText capacity).1) :
      Effect s r (s', .socket s.hub.nextId)

variable {s : Server} {r : Request}

/-- What was done before counts for nothing if it has left everything still. -/
theorem Effect.after {between : Server} {result : Server × Answer} (still : s.Still between)
    (effect : Effect between r result) : Effect s r result := by
  obtain ⟨sockets, quotas, hub⟩ := still
  cases effect with
  | replied later reply =>
    exact .replied ⟨later.sockets.trans sockets, later.quotas.trans quotas, later.hub.trans hub⟩ reply
  | published topic text route sockets' quotas' hub' reply =>
    refine .published topic text route (sockets'.trans sockets) (quotas'.trans quotas) ?_ reply
    rw [hub', hub]
  | opened topic capacity asked handshake named sockets' quotas' hub' =>
    rw [hub]
    refine .opened topic capacity asked handshake named ?_ ?_ ?_
    · rw [sockets', sockets, hub]
    · rw [quotas', Register.enter, quotas]
      rfl
    · rw [hub', hub]

theorem still_authorize (s : Server) (now : Nat) (r : Request) : s.Still (s.authorize now r).1 := by
  unfold authorize
  split
  · exact .refl s
  · split
    · exact ⟨rfl, rfl, rfl⟩
    · exact .refl s

/-- A publication fails, or it is published on the hub. -/
theorem publish_effect (s : Server) (nanos : Nat) (p : Publication) :
    s.Still (s.publish nanos p).1 ∨
      ∃ topic text, (s.publish nanos p).1.sockets = s.sockets ∧
        (s.publish nanos p).1.relay.register.opened = s.relay.register.opened ∧
        (s.publish nanos p).1.hub = (s.hub.publish topic text).1 := by
  unfold publish
  rcases transformed : s.relay.transform nanos p.channel p.bytes with ⟨relay, lines, outcome⟩
  have register : relay.register = s.relay.register := by
    have same := congrArg (·.1.register) transformed
    exact same.symm
  cases outcome with
  | error failure => exact .inl ⟨rfl, congrArg (·.opened) register, rfl⟩
  | ok result =>
    obtain ⟨topic, notification⟩ := result
    refine .inr ⟨topic.toText, notification.toJson, rfl, ?_, rfl⟩
    rw [← register]
    show (showPublished relay _).register.opened = _
    unfold showPublished
    split <;> rfl

theorem answerPublish_effect (s : Server) (route : Route.ofPath r.path = some .publish) :
    Effect s r ((s.answerPublish r).1, .reply (s.answerPublish r).2) := by
  unfold answerPublish
  cases s.readPublication r with
  | error rejection => exact .replied (.refl s) _
  | ok publication =>
    obtain still | ⟨topic, text, sockets, quotas, hub⟩ := s.publish_effect 0 publication
    · exact .replied still _
    · exact .published topic text route sockets quotas hub _

/-- A socket that is refused leaves everything still, and one that opens is on the topic that was
asked for. -/
theorem openSocket_effect (s : Server) (now : Nat) (kind : Topic.Kind) (resource : String)
    (user? : Option String) :
    (∃ fault, (s.openSocket now kind resource user?).2 = .error fault ∧
        s.Still (s.openSocket now kind resource user?).1) ∨
      ∃ user s', user? = some user ∧ resource ≠ "" ∧
        s.openSocket now kind resource user? = (s', .ok s.hub.nextId) ∧
        s'.sockets = s.sockets.insert s.hub.nextId ⟨⟨kind, resource, user⟩, []⟩ ∧
        s'.relay.register.opened =
          (s.relay.register.enter (connectionOf ⟨kind, resource, user⟩)).opened ∧
        s'.hub = (s.hub.subscribe (Topic.toText ⟨kind, resource, user⟩)
          s.settings.sessionCapacity).1 := by
  unfold openSocket
  cases user? with
  | none => exact .inl ⟨_, rfl, .refl s⟩
  | some user =>
    dsimp only [Relay.connect]
    cases made : Topic.make kind resource user with
    | error violation => exact .inl ⟨_, rfl, .refl s⟩
    | ok topic =>
      obtain ⟨rfl, identifier, _⟩ := Topic.make_eq_ok_iff.mp made
      dsimp only
      obtain ⟨_, same⟩ | ⟨_, _, _, same⟩ | ⟨_, _, same⟩ :=
        s.relay.register.connect_cases now (connectionOf ⟨kind, resource, user⟩)
      · rw [same]
        exact .inl ⟨_, rfl, rfl, rfl, rfl⟩
      · rw [same]
        exact .inl ⟨_, rfl, rfl, rfl, rfl⟩
      · rw [same]
        exact .inr ⟨user, _, rfl, identifier.ne_empty, rfl, rfl, rfl, rfl⟩

theorem answerSocket_effect (s : Server) (now : Nat) {kind : Topic.Kind} {resource : String}
    (route : Route.ofPath r.path = some (.socket kind resource)) :
    Effect s r (s.answerSocket now kind resource r) := by
  unfold answerSocket
  cases decoded : Percent.decode resource with
  | none => exact .replied (.refl s) _
  | some name =>
    cases handshake : checkHandshake r with
    | error rejection => exact .replied (.refl s) _
    | ok _ =>
      dsimp only
      obtain ⟨fault, refused, still⟩ | ⟨user, s', given, named, same, sockets, quotas, hub⟩ :=
        s.openSocket_effect now kind name (r.plainHeader? userHeader)
      · rw [refused]
        exact .replied still _
      · rw [same]
        refine .opened _ _ ?_ handshake named sockets quotas hub
        rw [topicAsked?, route]
        dsimp only
        rw [decoded, given]
        rfl

theorem answerRoute_effect (s : Server) (now : Nat) {route : Route}
    (found : Route.ofPath r.path = some route) : Effect s r (s.answerRoute now r route) := by
  cases route with
  | publish => exact answerPublish_effect s found
  | socket kind resource => exact answerSocket_effect s now found
  | _ => exact .replied (.refl s) _

theorem answerPath_effect (s : Server) (now : Nat) (r : Request) :
    Effect s r (s.answerPath now r) := by
  unfold answerPath
  cases found : Route.ofPath r.path with
  | none => exact .replied (.refl s) _
  | some route =>
    have still : s.Still (if route.isProtected then s.authorize now r else (s, .ok ())).1 := by
      split
      · exact s.still_authorize now r
      · exact .refl s
    dsimp only
    split
    · exact .replied still _
    · split
      · exact .after still (answerRoute_effect _ now found)
      · exact .replied still _

theorem answer_effect (s : Server) (now : Nat) (r : Request) : Effect s r (s.answer now r) := by
  unfold answer
  split
  · exact .replied (.refl s) _
  · have effect := s.answerPath_effect now r
    generalize s.answerPath now r = result at effect ⊢
    cases effect with
    | replied still reply => exact .replied still _
    | published topic text route sockets quotas hub reply =>
      exact .published topic text route sockets quotas hub _
    | opened topic capacity asked handshake named sockets quotas hub =>
      exact .opened topic capacity asked handshake named sockets quotas hub

/-- A request for a socket that is as it has to be, and that the register admits. -/
def Admits (s : Server) (now : Nat) (r : Request) : Prop :=
  checkHandshake r = .ok () ∧
    ∃ topic, topicAsked? r = some topic ∧
      Topic.make topic.kind topic.resource topic.user = .ok topic ∧
      (s.relay.register.connect now (connectionOf topic)).2 = .ok ()

theorem topicAsked_success {topic : Topic} (asked : topicAsked? r = some topic) :
    ∃ resource, Route.ofPath r.path = some (.socket topic.kind resource) ∧
      Percent.decode resource = some topic.resource ∧ r.plainHeader? userHeader = some topic.user := by
  unfold topicAsked? at asked
  split at asked
  · rename_i kind resource found
    obtain ⟨name, decoded, asked⟩ := Option.bind_eq_some_iff.mp asked
    obtain ⟨user, given, same⟩ := Option.bind_eq_some_iff.mp asked
    cases same
    exact ⟨resource, found, decoded, given⟩
  · cases asked

theorem method_of_handshake (ok : checkHandshake r = .ok ()) : r.method = "GET" := by
  by_contra other
  unfold checkHandshake at ok
  rw [if_pos other] at ok
  cases ok

theorem openSocket_ok_iff {topic : Topic} (now : Nat) :
    (∃ id, (s.openSocket now topic.kind topic.resource (some topic.user)).2 = .ok id) ↔
      Topic.make topic.kind topic.resource topic.user = .ok topic ∧
        (s.relay.register.connect now (connectionOf topic)).2 = .ok () := by
  unfold openSocket
  dsimp only [Relay.connect]
  cases made : Topic.make topic.kind topic.resource topic.user with
  | error violation => simp
  | ok other =>
    obtain ⟨rfl, _, _⟩ := Topic.make_eq_ok_iff.mp made
    dsimp only
    cases (s.relay.register.connect now (connectionOf topic)).2 with
    | error refusal => simp
    | ok _ => simp

/-- A request for a socket is answered as the socket opens. -/
theorem answer_of_asked {topic : Topic} (now : Nat) (asked : topicAsked? r = some topic)
    (handshake : checkHandshake r = .ok ()) :
    s.answer now r = match s.openSocket now topic.kind topic.resource (some topic.user) with
      | (s', .ok id) => (s', .socket id)
      | (s', .error fault) => (s', .reply (s'.finish r (faultReply fault))) := by
  obtain ⟨resource, found, decoded, given⟩ := topicAsked_success asked
  have method := method_of_handshake handshake
  have accepted : (Route.socket topic.kind resource).accepts r.method = true := by
    rw [method]
    rfl
  have path : s.answerPath now r = s.answerSocket now topic.kind resource r := by
    rw [answerPath, found]
    simp only [Route.isProtected, Bool.false_eq_true, if_false, accepted, if_true]
    rfl
  rw [answer, if_neg (by rw [method]; decide), path, answerSocket, decoded]
  dsimp only
  rw [handshake, given]
  rcases s.openSocket now topic.kind topic.resource (some topic.user) with ⟨s', result⟩
  cases result <;> rfl

theorem socket_of_asked_iff {topic : Topic} (now : Nat) (asked : topicAsked? r = some topic)
    (handshake : checkHandshake r = .ok ()) :
    (∃ id, (s.answer now r).2 = .socket id) ↔
      ∃ id, (s.openSocket now topic.kind topic.resource (some topic.user)).2 = .ok id := by
  rw [answer_of_asked now asked handshake]
  rcases s.openSocket now topic.kind topic.resource (some topic.user) with ⟨s', result⟩
  cases result <;> simp

theorem admits_iff (s : Server) (now : Nat) (r : Request) :
    s.Admits now r ↔ ∃ id, (s.answer now r).2 = .socket id := by
  constructor
  · rintro ⟨handshake, topic, asked, admitted⟩
    exact (socket_of_asked_iff now asked handshake).mpr ((openSocket_ok_iff now).mpr admitted)
  · rintro ⟨id, opened⟩
    have effect := s.answer_effect now r
    obtain ⟨topic, asked, handshake⟩ :
        ∃ topic, topicAsked? r = some topic ∧ checkHandshake r = .ok () := by
      generalize s.answer now r = result at effect opened
      cases effect with
      | replied => cases opened
      | published => cases opened
      | opened topic _ asked handshake => exact ⟨topic, asked, handshake⟩
    have ok := (socket_of_asked_iff now asked handshake).mp ⟨id, opened⟩
    exact ⟨handshake, topic, asked, (openSocket_ok_iff now).mp ok⟩

end Server

end NotificationRelay
