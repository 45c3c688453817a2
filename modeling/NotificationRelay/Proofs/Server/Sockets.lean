import Mathlib.Data.List.Nodup
import Mathlib.Data.List.Perm.Basic
import NotificationRelay.Proofs.Hub.Session
import NotificationRelay.Proofs.Server.Effect
import NotificationRelay.Proofs.Server.Route

/-! Open sockets. Each of them counts against the quotas of its user and has a session on the hub,
and nothing else does: whatever befalls a server, the three stay in step. -/
namespace NotificationRelay

namespace Hub

structure Session.Hears (s : Session) (topic : String) : Prop where
  subscribed : s.subscribed = true
  listening : s.box.listening = true
  topic : s.box.topic = topic

/-- The hub has one session for each socket, on the topic of the socket, and no other. -/
structure Serves (h : Hub) (held : List (Nat × Topic)) : Prop where
  sound : h.Sound
  distinct : (held.map (·.1)).Nodup
  hears : ∀ socket ∈ held, ∃ s, h.session? socket.1 = some s ∧ s.Hears socket.2.toText
  owned : ∀ id s, h.session? id = some s → s.subscribed = true → id ∈ held.map (·.1)

variable {h : Hub} {held : List (Nat × Topic)}

theorem Session.Hears.publish {s : Session} {own : String} (hears : s.Hears own)
    (topic text : String) : (s.publish topic text).Hears own where
  subscribed := by
    rw [Session.subscribed_publish, hears.subscribed, hears.listening]
    rfl
  listening := (s.listening_publish topic text).trans hears.listening
  topic := (s.topic_publish topic text).trans hears.topic

theorem Session.subscribed_of_publish {s : Session} {topic text : String}
    (subscribed : (s.publish topic text).subscribed = true) : s.subscribed = true := by
  rw [Session.subscribed_publish, Bool.and_eq_true] at subscribed
  exact subscribed.1

namespace Serves

theorem empty : Hub.empty.Serves [] where
  sound := sound_empty
  distinct := .nil
  hears _ member := nomatch member
  owned _ _ found := nomatch found

theorem sessions_perm (serves : h.Serves held) (name : String) :
    (h.sessions name).Perm ((held.filter fun socket => socket.2.toText = name).map (·.1)) := by
  have distinct : ((held.filter fun socket => socket.2.toText = name).map (·.1)).Nodup :=
    serves.distinct.sublist (List.filter_sublist.map _)
  rw [List.perm_ext_iff_of_nodup (serves.sound.distinct name) distinct]
  intro id
  rw [mem_sessions serves.sound]
  constructor
  · rintro ⟨s, found, subscribed, own⟩
    obtain ⟨socket, member, rfl⟩ := List.mem_map.mp (serves.owned id s found subscribed)
    obtain ⟨same, there, hears⟩ := serves.hears socket member
    cases found.symm.trans there
    refine List.mem_map_of_mem (List.mem_filter.mpr ⟨member, ?_⟩)
    exact decide_eq_true (hears.topic.symm.trans own)
  · intro member
    obtain ⟨socket, among, rfl⟩ := List.mem_map.mp member
    obtain ⟨there, own⟩ := List.mem_filter.mp among
    obtain ⟨s, found, hears⟩ := serves.hears socket there
    exact ⟨s, found, hears.subscribed, hears.topic.trans (of_decide_eq_true own)⟩

/-- Sessions that change, but neither come nor go. -/
theorem keep (serves : h.Serves held) {h' : Hub} (sound : h'.Sound)
    (change : Nat → Session → Session)
    (sessions : ∀ id, h'.session? id = (h.session? id).map (change id))
    (hears : ∀ id s topic, s.Hears topic → (change id s).Hears topic)
    (fewer : ∀ id s, (change id s).subscribed = true → s.subscribed = true) :
    h'.Serves held where
  sound := sound
  distinct := serves.distinct
  hears socket member := by
    obtain ⟨s, found, own⟩ := serves.hears socket member
    refine ⟨_, ?_, hears socket.1 s _ own⟩
    rw [sessions, found]
    rfl
  owned id s found subscribed := by
    rw [sessions] at found
    obtain ⟨before, there, rfl⟩ := Option.map_eq_some_iff.mp found
    exact serves.owned id before there (fewer id before subscribed)

theorem publish (serves : h.Serves held) (topic text : String) :
    (h.publish topic text).1.Serves held :=
  serves.keep (sound_act serves.sound (.publish topic text)) (fun _ s => s.publish topic text)
    (fun id => session?_publish serves.sound topic text id)
    (fun _ _ _ hears => hears.publish topic text) fun _ _ => Session.subscribed_of_publish

theorem drain (serves : h.Serves held) (i : Nat) : (h.drain i).1.Serves held := by
  refine serves.keep (serves.sound.drain i) _ (h.session?_drain i) (fun id s topic hears => ?_)
    fun id s => ?_
  · split
    · exact ⟨hears.subscribed, hears.listening, hears.topic⟩
    · exact hears
  · split <;> exact fun subscribed => subscribed

theorem subscribe (serves : h.Serves held) (topic : Topic) (capacity : Nat) :
    (h.subscribe topic.toText capacity).1.Serves ((h.nextId, topic) :: held) where
  sound := serves.sound.subscribe topic.toText capacity
  distinct := by
    refine List.nodup_cons.mpr ⟨fun member => ?_, serves.distinct⟩
    obtain ⟨socket, member, same⟩ := List.mem_map.mp member
    obtain ⟨s, found, _⟩ := serves.hears socket member
    exact Nat.lt_irrefl _ (same ▸ serves.sound.lt_nextId found)
  hears socket member := by
    rw [session?_subscribe, Session.next]
    rcases List.mem_cons.mp member with rfl | member
    · exact ⟨_, if_pos rfl, rfl, rfl, rfl⟩
    · obtain ⟨s, found, hears⟩ := serves.hears socket member
      rw [if_neg (Nat.ne_of_lt (serves.sound.lt_nextId found))]
      exact ⟨s, found, hears⟩
  owned id s found subscribed := by
    rw [session?_subscribe, Session.next] at found
    by_cases fresh : id = h.nextId
    · exact List.mem_cons.mpr (.inl fresh)
    · rw [if_neg fresh] at found
      exact List.mem_cons_of_mem _ (serves.owned id s found subscribed)

theorem close (serves : h.Serves held) {id : Nat} {topic : Topic} (there : (id, topic) ∈ held) :
    ((h.unsubscribe topic.toText id).leave id).Serves (held.filter fun socket => socket.1 ≠ id) := by
  have sound := sound_act (sound_act serves.sound (.unsubscribe topic.toText id)) (.leave id)
  have other {i : Nat} (distinct : i ≠ id) :
      ((h.unsubscribe topic.toText id).leave id).session? i = h.session? i := by
    rw [session?_leave, session?_unsubscribe, Session.next, Session.next, if_neg distinct,
      if_neg distinct]
  refine ⟨sound, serves.distinct.sublist (List.filter_sublist.map _), fun socket member => ?_,
    fun i s found subscribed => ?_⟩
  · obtain ⟨member, distinct⟩ := List.mem_filter.mp member
    rw [other (of_decide_eq_true distinct)]
    exact serves.hears socket member
  · by_cases own : i = id
    · -- The session of the socket itself has been unsubscribed.
      obtain ⟨before, held, hears⟩ := serves.hears _ there
      rw [own, session?_leave, session?_unsubscribe, held] at found
      simp only [Session.next, if_true, Option.map_some, Option.some.injEq] at found
      rw [← found, Session.unsubscribe, if_pos hears.topic] at subscribed
      cases subscribed
    · rw [other own] at found
      obtain ⟨socket, member, rfl⟩ := List.mem_map.mp (serves.owned i s found subscribed)
      exact List.mem_map_of_mem (List.mem_filter.mpr ⟨member, decide_eq_true own⟩)

end Serves

end Hub

namespace Server

open Http

inductive Act where
  | request (now : Nat) (r : Request)
  | forward (id : Nat)
  | read (id : Nat)
  | close (id : Nat)
  | sweep (now : Nat)

def socketOpened (r : Request) : Answer → List (Nat × Topic)
  | .reply _ => []
  | .socket id => ((topicAsked? r).map fun topic => (id, topic)).toList

structure Attendance where
  server : Server
  held : List (Nat × Topic)

namespace Attendance

def step (s : Attendance) : Act → Attendance
  | .request now r =>
    let (server, answer) := s.server.answer now r
    ⟨server, socketOpened r answer ++ s.held⟩
  | .forward id => ⟨s.server.forward id, s.held⟩
  | .read id => ⟨(s.server.readSocket id).1, s.held⟩
  | .close id => ⟨s.server.closeSocket id, s.held.filter fun socket => socket.1 ≠ id⟩
  | .sweep now => ⟨{ s.server with relay := (s.server.relay.sweep now).1 }, s.held⟩

def run (server : Server) (acts : List Act) : Attendance := acts.foldl step ⟨server, []⟩

end Attendance

/-- The register, the hub and the server itself know of the same sockets. -/
structure InStep (s : Server) (held : List (Nat × Topic)) : Prop where
  counted : s.relay.register.Tells (held.map fun socket => connectionOf socket.2)
  served : s.hub.Serves held
  kept : ∀ id topic, (id, topic) ∈ held ↔ (s.sockets.get? id).map (·.topic) = some topic
  named : ∀ socket ∈ held, socket.2.resource ≠ ""

namespace InStep

variable {s : Server} {held : List (Nat × Topic)}

theorem make {settings : ServerSettings} {observed : Bool}
    (made : Server.make settings observed = .ok s) : s.InStep [] := by
  unfold Server.make at made
  split at made
  · cases made
  · cases made
    exact ⟨Register.tells_make _, .empty, fun _ _ => ⟨nofun, nofun⟩, nofun⟩

theorem still (inStep : s.InStep held) {s' : Server} (still : s.Still s') : s'.InStep held where
  counted := inStep.counted.of_opened still.quotas
  served := still.hub ▸ inStep.served
  kept := still.sockets ▸ inStep.kept
  named := inStep.named

/-- Sockets keep their topics. -/
theorem of_topics (inStep : s.InStep held) {s' : Server}
    (register : s'.relay.register = s.relay.register) (served : s'.hub.Serves held)
    (topics : ∀ id, (s'.sockets.get? id).map (·.topic) = (s.sockets.get? id).map (·.topic)) :
    s'.InStep held where
  counted := register ▸ inStep.counted
  served := served
  kept id topic := by
    rw [topics]
    exact inStep.kept id topic
  named := inStep.named

theorem answer (inStep : s.InStep held) {r : Request} {result : Server × Answer}
    (effect : Effect s r result) : result.1.InStep (socketOpened r result.2 ++ held) := by
  cases effect with
  | replied still reply => exact inStep.still still
  | published topic text route sockets quotas hub reply =>
    refine ⟨inStep.counted.of_opened quotas, ?_, sockets ▸ inStep.kept, inStep.named⟩
    exact hub ▸ inStep.served.publish topic text
  | opened topic capacity asked _ named sockets quotas hub =>
    rw [socketOpened, asked]
    refine ⟨?_, ?_, fun id other => ?_, fun socket member => ?_⟩
    · exact (inStep.counted.enter (connectionOf topic)).of_opened quotas
    · exact hub ▸ inStep.served.subscribe topic capacity
    · have fresh := (List.nodup_cons.mp (inStep.served.subscribe topic capacity).distinct).1
      change (id, other) ∈ (s.hub.nextId, topic) :: held ↔ _
      rw [sockets, Store.get?_insert, List.mem_cons]
      by_cases own : id = s.hub.nextId
      · rw [own, if_pos rfl]
        have absent : (s.hub.nextId, other) ∉ held :=
          fun member => fresh (List.mem_map.mpr ⟨_, member, rfl⟩)
        simp [absent, eq_comm]
      · rw [if_neg own, ← inStep.kept]
        simp [own]
    · rcases List.mem_cons.mp member with rfl | member
      · exact named
      · exact inStep.named socket member

theorem forward (inStep : s.InStep held) (id : Nat) : (s.forward id).InStep held := by
  refine inStep.of_topics rfl (inStep.served.drain id) fun other => ?_
  change ((s.sockets.alter id _).get? other).map _ = _
  rw [Store.get?_alter]
  split
  · rename_i same
    rw [same, Option.map_map]
    rfl
  · rfl

theorem read (inStep : s.InStep held) (id : Nat) : (s.readSocket id).1.InStep held := by
  unfold readSocket
  cases found : s.sockets.get? id with
  | none => exact inStep
  | some socket =>
    dsimp only
    cases socket.sent with
    | nil => exact inStep
    | cons text rest =>
      refine inStep.of_topics rfl inStep.served fun other => ?_
      change ((s.sockets.insert id _).get? other).map _ = _
      rw [Store.get?_insert]
      split
      · rename_i same
        rw [same, found]
        rfl
      · rfl

/-- The socket of a session is one of those that are open, besides the others. -/
theorem perm_close (inStep : s.InStep held) {id : Nat} {topic : Topic}
    (there : (id, topic) ∈ held) :
    held.Perm ((id, topic) :: held.filter fun socket => socket.1 ≠ id) := by
  have distinct := inStep.served.distinct
  refine (List.perm_cons_erase there).trans (.cons _ (.of_eq ?_))
  rw [distinct.of_map.erase_eq_filter]
  refine List.filter_congr fun socket member => ?_
  have same := List.inj_on_of_nodup_map distinct member there
  rw [decide_not, bne, beq_eq_decide]
  exact congrArg (!·) (decide_eq_decide.mpr ⟨fun equal => congrArg Prod.fst equal, same⟩)

theorem close (inStep : s.InStep held) (id : Nat) :
    (s.closeSocket id).InStep (held.filter fun socket => socket.1 ≠ id) := by
  unfold closeSocket
  cases found : s.sockets.get? id with
  | none =>
    have all : (held.filter fun socket => socket.1 ≠ id) = held := by
      refine List.filter_eq_self.mpr fun socket member => decide_eq_true ?_
      rintro rfl
      have known := (inStep.kept socket.1 socket.2).mp member
      rw [found] at known
      cases known
    rw [all]
    exact inStep
  | some socket =>
    have there : (id, socket.topic) ∈ held := (inStep.kept id socket.topic).mpr (by rw [found]; rfl)
    refine ⟨?_, inStep.served.close there, fun other topic => ?_, fun socket member => ?_⟩
    · exact (inStep.counted.release ((inStep.perm_close there).map _)).of_opened rfl
    · change _ ↔ ((s.sockets.erase id).get? other).map _ = _
      rw [Store.get?_erase, List.mem_filter, inStep.kept]
      by_cases own : other = id <;> simp [own]
    · exact inStep.named socket (List.mem_filter.mp member).1

end InStep

namespace Attendance

theorem inStep_step {s : Attendance} (inStep : s.server.InStep s.held) (a : Act) :
    (s.step a).server.InStep (s.step a).held := by
  cases a with
  | request now r => exact inStep.answer (s.server.answer_effect now r)
  | forward id => exact inStep.forward id
  | read id => exact inStep.read id
  | close id => exact inStep.close id
  | sweep now => exact inStep.still ⟨rfl, rfl, rfl⟩

theorem inStep_fold (acts : List Act) {s : Attendance} (inStep : s.server.InStep s.held) :
    (acts.foldl step s).server.InStep (acts.foldl step s).held := by
  induction acts generalizing s with
  | nil => exact inStep
  | cons a rest ih => exact ih (inStep_step inStep a)

end Attendance

def sortOf : Topic.Kind → QuotaSort (String × String)
  | .project => .byProject
  | .job => .byJob

theorem user_connectionOf (t : Topic) : (connectionOf t).user = t.user := by
  unfold connectionOf
  split <;> rfl

theorem of?_connectionOf {t : Topic} (named : t.resource ≠ "") (kind : Topic.Kind) :
    (sortOf kind).of? (connectionOf t) =
      if t.kind = kind then some (t.user, t.resource) else none := by
  rcases t with ⟨own, resource, user⟩
  cases kind <;> cases own
  · exact if_neg named
  · rfl
  · rfl
  · exact if_neg named

namespace InStep

variable {s : Server} {held : List (Nat × Topic)}

theorem count_user (inStep : s.InStep held) (user : String) :
    s.relay.register.opened.count (.user user) =
      held.countP fun socket => socket.2.user = user := by
  refine (inStep.counted.count .byUser user).trans ?_
  rw [QuotaSort.filterMap_byUser, List.map_map, List.count, List.countP_map]
  refine List.countP_congr fun socket _ => ?_
  simp [user_connectionOf]

theorem count_resource (inStep : s.InStep held) (kind : Topic.Kind) (user resource : String) :
    s.relay.register.opened.count ((sortOf kind).quota (user, resource)) =
      held.countP fun socket => socket.2 = ⟨kind, resource, user⟩ := by
  refine (inStep.counted.count (sortOf kind) (user, resource)).trans ?_
  rw [List.filterMap_map, List.count, List.countP_filterMap]
  refine List.countP_congr fun socket member => ?_
  rw [Function.comp, of?_connectionOf (inStep.named socket member)]
  rcases socket with ⟨id, own, name, owner⟩
  by_cases same : own = kind <;> simp [same, and_comm]

end InStep

/-- Whatever befalls a server that has just started, the numbers of open connections by user, by
project and by job are those of the open sockets, and the hub has one session for each socket on its
topic and no other. A socket opens if and only if the request is admitted; a request that opens none
and publishes nothing changes neither the numbers nor the hub. -/
theorem sockets_in_step {settings : ServerSettings} {observed : Bool} {server : Server}
    (made : Server.make settings observed = .ok server) (acts : List Act) :
    let s := Attendance.run server acts
    let opened := s.server.relay.register.opened
    (∀ user, opened.count (.user user) = s.held.countP fun socket => socket.2.user = user) ∧
      (∀ user project, opened.count (.project user project) =
        s.held.countP fun socket => socket.2 = ⟨.project, project, user⟩) ∧
      (∀ user job, opened.count (.job user job) =
        s.held.countP fun socket => socket.2 = ⟨.job, job, user⟩) ∧
      (s.held.map (·.1)).Nodup ∧
      (∀ name, (s.server.hub.sessions name).Perm
        ((s.held.filter fun socket => socket.2.toText = name).map (·.1))) ∧
      (∀ now r, (∃ id, (s.server.answer now r).2 = .socket id) ↔ s.server.Admits now r) ∧
      ∀ now r reply, Route.ofPath r.path ≠ some .publish →
        (s.server.answer now r).2 = .reply reply →
          (s.server.answer now r).1.relay.register.opened = opened ∧
            (s.server.answer now r).1.hub = s.server.hub := by
  intro s opened
  have inStep : s.server.InStep s.held := Attendance.inStep_fold acts (.make made)
  refine ⟨inStep.count_user, inStep.count_resource .project, inStep.count_resource .job,
    inStep.served.distinct, inStep.served.sessions_perm,
    fun now r => (s.server.admits_iff now r).symm, fun now r reply other replied => ?_⟩
  have effect := s.server.answer_effect now r
  generalize s.server.answer now r = result at effect replied ⊢
  cases effect with
  | replied still _ => exact ⟨still.quotas, still.hub⟩
  | published _ _ route => exact absurd route other
  | opened => cases replied

def listening : Request where
  method := "GET"
  target := "/ws/job/j1"
  headers := [("x-user-id", "u"), ("connection", "upgrade"), ("upgrade", "websocket"),
    ("sec-websocket-version", "13"), ("sec-websocket-key", "k")]
  body := []
  upgradable := true

theorem topicAsked_listening : topicAsked? listening = some ⟨.job, "j1", "u"⟩ := by
  have path : listening.path = "/ws/job/j1" := by cbv
  have parts := Text.splitOn_ofList "/ws/job/j1" '/'
  have route : Route.ofPath listening.path = some (.socket .job "j1") := by
    rw [path, Route.ofPath, parts]
    decide
  have name : Percent.decode "j1" = some "j1" := by cbv
  have user : listening.plainHeader? userHeader = some "u" := by cbv
  rw [topicAsked?, route]
  dsimp only
  rw [name, user]
  rfl

theorem checkHandshake_listening : checkHandshake listening = .ok () := by
  have connection : listening.mentions "connection" "upgrade" = true := by cbv
  have upgrade : listening.hasHeader "upgrade" "websocket" = true := by cbv
  have key : listening.header? "sec-websocket-key" = some "k" := by cbv
  have version : listening.hasHeader "sec-websocket-version" "13" = true := by cbv
  rw [checkHandshake, connection, upgrade, key, version]
  rfl

/-- Of two sockets on the job the second one stays open. -/
theorem sockets_in_step_listening :
    ∃ server, Server.make .default false = .ok server ∧
      let s := Attendance.run server [.request 0 listening, .request 7 listening, .close 0]
      s.held = [(1, ⟨.job, "j1", "u"⟩)] ∧
        s.server.relay.register.opened.count (.job "u" "j1") = 1 ∧
        (s.server.hub.sessions "job:j1:u").Perm [1] := by
  refine ⟨_, rfl, ?_⟩
  obtain ⟨_, _, job, _, sessions, _, _⟩ := sockets_in_step
    (show Server.make .default false = .ok _ from rfl)
    [.request 0 listening, .request 7 listening, .close 0]
  intro s
  have held : s.held = [(1, ⟨.job, "j1", "u"⟩)] := by
    simp only [s, Attendance.run, List.foldl_cons, List.foldl_nil, Attendance.step, socketOpened,
      answer_of_asked _ topicAsked_listening checkHandshake_listening, topicAsked_listening]
    rfl
  have job : s.server.relay.register.opened.count (.job "u" "j1") = _ := job "u" "j1"
  have sessions : (s.server.hub.sessions "job:j1:u").Perm _ := sessions "job:j1:u"
  rw [held] at job sessions
  exact ⟨held, job, sessions⟩

end Server

end NotificationRelay
