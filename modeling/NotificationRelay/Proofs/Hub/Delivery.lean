import Mathlib.Data.List.Perm.Basic
import Mathlib.Data.List.Nodup
import NotificationRelay.Proofs.Hub.Session

/-! What the sessions of a hub get. A chronicle keeps a record of each session that says from the
acts what is due to it; what it has received, and what waits for it, is just that. -/
namespace NotificationRelay.Hub

def Received.texts : Received → List String
  | .text t => [t]
  | _ => []

def waiting (h : Hub) (id : Nat) : List String :=
  ((h.mailboxes.get? id).map (·.waiting)).getD []

structure Record where
  topic : String
  capacity : Nat
  subscribed : Bool
  /-- What waited when the owner left, if he has. -/
  left : Option (List String)
  /-- The texts published on the topic while the session was subscribed and its owner there, at
  moments when less than the capacity waited. -/
  due : List String
  received : List String
deriving DecidableEq, Repr

namespace Record

def unborn : Record := ⟨"", 0, false, none, [], []⟩

def takes (r : Record) (topic : String) (waiting : Nat) : Bool :=
  r.subscribed && r.left.isNone && r.topic = topic && waiting < max r.capacity 1

end Record

def note (h : Hub) (id : Nat) (r : Record) : Act → Record
  | .subscribe topic capacity =>
    if (h.subscribe topic capacity).2 = id then ⟨topic, capacity, true, none, [], []⟩ else r
  | .unsubscribe topic i => if i = id ∧ topic = r.topic then { r with subscribed := false } else r
  | .publish topic text =>
    if r.takes topic (h.waiting id).length then { r with due := r.due ++ [text] } else r
  | .receive i =>
    if i = id then { r with received := r.received ++ (h.receive i).2.texts } else r
  | .leave i => if i = id then { r with left := some (r.left.getD (h.waiting id)) } else r

structure Chronicle where
  hub : Hub
  record : Nat → Record

namespace Chronicle

def start : Chronicle := ⟨.empty, fun _ => .unborn⟩

def step (s : Chronicle) (a : Act) : Chronicle :=
  ⟨s.hub.act a, fun id => s.hub.note id (s.record id) a⟩

def run (acts : List Act) : Chronicle := acts.foldl step start

end Chronicle

theorem waiting_eq (h : Hub) (id : Nat) :
    h.waiting id = ((h.session? id).map (·.box.waiting)).getD [] := by
  rw [waiting, session?, Option.map_map]
  rfl

theorem waiting_of_session {h : Hub} {id : Nat} {s : Session} (found : h.session? id = some s) :
    h.waiting id = s.box.waiting := by
  rw [waiting_eq, found]
  rfl

theorem waiting_of_none {h : Hub} {id : Nat} (unborn : h.session? id = none) :
    h.waiting id = [] := by
  rw [waiting_eq, unborn]
  rfl

theorem waiting_of_empty {h : Hub} {id : Nat}
    (empty : ∀ box, h.mailboxes.get? id = some box → box.waiting = []) : h.waiting id = [] := by
  rw [waiting]
  cases held : h.mailboxes.get? id with
  | none => rfl
  | some box => exact empty box held

theorem texts_receive (h : Hub) (id : Nat) : (h.receive id).2.texts = (h.waiting id).take 1 := by
  obtain ⟨box, text, rest, held, waits⟩ | empty := h.receive_cases id
  · rw [receive_waiting held waits, waiting, held, Option.map_some, Option.getD_some, waits]
    rfl
  · rw [waiting_of_empty empty]
    cases received : (h.receive id).2 with
    | text text => exact absurd received ((receive_nothing empty).2 text)
    | _ => rfl

/-- Of the texts that wait, the owner gets the oldest; the others wait on in their order. -/
theorem receive_oldest {h : Hub} {id : Nat} {text : String} {rest : List String}
    (waits : h.waiting id = text :: rest) :
    (h.receive id).2 = .text text ∧ (h.receive id).1.waiting id = rest := by
  obtain ⟨box, first, others, held, queued⟩ | empty := h.receive_cases id
  · have same : first :: others = text :: rest := by
      rw [← queued, ← waits, waiting, held]
      rfl
    obtain ⟨rfl, rfl⟩ := List.cons.inj same
    rw [receive_waiting held queued, waiting, Store.get?_insert, if_pos rfl]
    exact ⟨rfl, rfl⟩
  · rw [waiting_of_empty empty] at waits
    cases waits

namespace Record

structure TellsOf (r : Record) (s : Session) : Prop where
  topic : r.topic = s.box.topic
  capacity : max r.capacity 1 = s.box.capacity
  listening : r.left.isNone = s.box.listening
  -- The hub may have withdrawn the subscription of an owner who has left.
  subscribed : (r.subscribed && r.left.isNone) = (s.subscribed && s.box.listening)
  complete : r.received ++ r.left.getD s.box.waiting = r.due
  emptied : r.left.isSome → s.box.waiting = []

structure Blank (r : Record) : Prop where
  subscribed : r.subscribed = false
  left : r.left.getD [] = []
  due : r.due = []
  received : r.received = []

def Tells (r : Record) : Option Session → Prop
  | none => r.Blank
  | some s => r.TellsOf s

theorem Tells.blank {r : Record} {session? : Option Session} (tells : r.Tells session?)
    (unborn : session? = none) : r.Blank := by
  rw [unborn] at tells
  exact tells

theorem Tells.known {r : Record} {session? : Option Session} {s : Session}
    (tells : r.Tells session?) (found : session? = some s) : r.TellsOf s := by
  rw [found] at tells
  exact tells

namespace TellsOf

variable {r : Record} {s : Session}

theorem takes (tells : r.TellsOf s) (topic : String) :
    r.takes topic s.box.waiting.length =
      (s.subscribed && s.box.listening && s.box.topic = topic &&
        s.box.waiting.length < s.box.capacity) := by
  rw [Record.takes, tells.subscribed, tells.topic, tells.capacity]

theorem unsubscribe (tells : r.TellsOf s) (topic : String) :
    (if topic = r.topic then { r with subscribed := false } else r).TellsOf
      (s.unsubscribe topic) := by
  unfold Session.unsubscribe
  rw [← tells.topic]
  by_cases own : topic = r.topic
  · rw [if_pos own, if_pos own.symm]
    exact { tells with subscribed := rfl }
  · rw [if_neg own, if_neg (Ne.symm own)]
    exact tells

theorem publish (tells : r.TellsOf s) (topic text : String) :
    (if r.takes topic s.box.waiting.length then { r with due := r.due ++ [text] } else r).TellsOf
      (s.publish topic text) := by
  rw [tells.takes]
  unfold Session.publish
  by_cases own : s.subscribed ∧ s.box.topic = topic
  · rw [if_pos own]
    cases hears : s.box.listening with
    | false =>
      simp only [Bool.not_false, if_true, Bool.and_false, Bool.false_and, Bool.false_eq_true,
        if_false]
      refine { tells with subscribed := ?_ }
      rw [tells.subscribed, hears, Bool.and_false, Bool.false_and]
    | true =>
      by_cases full : s.box.capacity ≤ s.box.waiting.length
      · simp [full, Nat.not_lt_of_le full, tells]
      · have here : r.left = none := by
          rw [← Option.isNone_iff_eq_none, tells.listening, hears]
        have complete := tells.complete
        simp only [here, Option.getD_none] at complete
        rw [if_pos (by simpa [own] using Nat.lt_of_not_le full), if_neg (by simp), if_neg full]
        refine { tells with complete := ?_, emptied := ?_ }
        · simp [here, ← complete]
        · simp [here]
  · rw [if_neg own, if_neg]
    · exact tells
    · simp only [Bool.and_eq_true, decide_eq_true_eq]
      exact fun all => own ⟨all.1.1.1, all.1.2⟩

theorem receive (tells : r.TellsOf s) :
    { r with received := r.received ++ s.box.waiting.take 1 }.TellsOf s.receive := by
  refine { tells with complete := ?_, emptied := ?_ }
  · rw [← tells.complete]
    cases here : r.left with
    | none =>
      simp only [Option.getD_none, Session.receive]
      cases s.box.waiting <;> simp
    | some texts =>
      rw [tells.emptied (by simp [here])]
      simp
  · intro gone
    rw [Session.receive, tells.emptied gone]
    rfl

theorem leave (tells : r.TellsOf s) :
    { r with left := some (r.left.getD s.box.waiting) }.TellsOf s.leave where
  topic := tells.topic
  capacity := tells.capacity
  listening := rfl
  subscribed := by simp [Session.leave]
  complete := tells.complete
  emptied _ := rfl

end TellsOf

end Record

section

variable {h : Hub} {id : Nat} {r : Record}

theorem tells_subscribe {session? : Option Session} (tells : r.Tells session?) (topic : String)
    (capacity : Nat) :
    (h.note id r (.subscribe topic capacity)).Tells
      (Session.next id h.nextId (.subscribe topic capacity) session?) := by
  have number : (h.subscribe topic capacity).2 = h.nextId := rfl
  rw [note, number, Session.next]
  by_cases own : id = h.nextId
  · rw [if_pos own, if_pos own.symm]
    exact ⟨rfl, rfl, rfl, rfl, rfl, fun gone => by cases gone⟩
  · rw [if_neg own, if_neg (Ne.symm own)]
    exact tells

theorem tells_note_blank (blank : r.Blank) (unborn : h.session? id = none) (a : Act) :
    (h.note id r a).Tells (Session.next id h.nextId a none) := by
  have nothing := waiting_of_none unborn
  cases a with
  | subscribe topic capacity => exact tells_subscribe (show r.Tells none from blank) topic capacity
  | unsubscribe topic i =>
    rw [note, Session.next, Option.map_none, ite_self]
    split
    · exact { blank with subscribed := rfl }
    · exact blank
  | publish topic text =>
    rw [note, if_neg]
    · exact blank
    · simp [Record.takes, blank.subscribed]
  | receive i =>
    rw [note, Session.next, Option.map_none, ite_self]
    split
    · rename_i own
      rw [own, texts_receive, nothing]
      exact { blank with received := by rw [blank.received]; rfl }
    · exact blank
  | leave i =>
    rw [note, Session.next, Option.map_none, ite_self]
    split
    · rw [nothing]
      exact { blank with left := blank.left }
    · exact blank

/-- What is written down of an act is what the act makes of the session. -/
theorem tells_note (tells : r.Tells (h.session? id)) (a : Act) :
    (h.note id r a).Tells (Session.next id h.nextId a (h.session? id)) := by
  cases found : h.session? id with
  | none => exact tells_note_blank (tells.blank found) found a
  | some s =>
    have waits := waiting_of_session found
    have tells := tells.known found
    cases a with
    | subscribe topic capacity =>
      exact tells_subscribe (show r.Tells (some s) from tells) topic capacity
    | unsubscribe topic i =>
      rw [note, Session.next]
      by_cases own : id = i
      · simp only [own, true_and, if_true, Option.map_some]
        exact tells.unsubscribe topic
      · simp only [own, Ne.symm own, false_and, if_false]
        exact tells
    | publish topic text =>
      rw [note, waits]
      exact tells.publish topic text
    | receive i =>
      rw [note, Session.next]
      by_cases own : id = i
      · rw [if_pos own, if_pos own.symm, ← own, texts_receive, waits]
        exact tells.receive
      · rw [if_neg own, if_neg (Ne.symm own)]
        exact tells
    | leave i =>
      rw [note, Session.next]
      by_cases own : id = i
      · rw [if_pos own, if_pos own.symm, waits]
        exact tells.leave
      · rw [if_neg own, if_neg (Ne.symm own)]
        exact tells

end

namespace Chronicle

structure Faithful (s : Chronicle) : Prop where
  sound : s.hub.Sound
  tells : ∀ id, (s.record id).Tells (s.hub.session? id)

theorem faithful_start : start.Faithful where
  sound := sound_empty
  tells _ := ⟨rfl, rfl, rfl, rfl⟩

theorem faithful_step {s : Chronicle} (faithful : s.Faithful) (a : Act) : (s.step a).Faithful where
  sound := sound_act faithful.sound a
  tells id := by
    change (s.hub.note id (s.record id) a).Tells ((s.hub.act a).session? id)
    rw [session?_act faithful.sound]
    exact tells_note (faithful.tells id) a

theorem faithful_fold {s : Chronicle} (faithful : s.Faithful) (acts : List Act) :
    (acts.foldl step s).Faithful := by
  induction acts generalizing s with
  | nil => exact faithful
  | cons a rest ih => exact ih (faithful_step faithful a)

variable {s : Chronicle}

theorem Faithful.complete (faithful : s.Faithful) (id : Nat) :
    let r := s.record id
    r.received ++ r.left.getD (s.hub.waiting id) = r.due := by
  intro r
  have tells := faithful.tells id
  cases found : s.hub.session? id with
  | none =>
    have blank := tells.blank found
    rw [waiting_of_none found, blank.received, blank.due]
    exact blank.left
  | some session =>
    rw [waiting_of_session found]
    exact (tells.known found).complete

theorem session?_eq_some {h : Hub} {id : Nat} {box : Mailbox} (held : h.mailboxes.get? id = some box) :
    h.session? id = some ⟨box, (h.sessions box.topic).contains id⟩ := by
  rw [session?, held]
  rfl

/-- The sessions that take a text are those to which it is due. -/
theorem Faithful.taking_iff (faithful : s.Faithful) (topic : String) (id : Nat) :
    id ∈ s.hub.taking topic ↔ (s.record id).takes topic (s.hub.waiting id).length := by
  have tells := faithful.tells id
  rw [mem_taking]
  cases held : s.hub.mailboxes.get? id with
  | none =>
    have found : s.hub.session? id = none := by
      rw [session?, held]
      rfl
    have blank := tells.blank found
    have absent : id ∉ s.hub.sessions topic := by
      simp [mem_sessions faithful.sound, found]
    simp [absent, Record.takes, blank.subscribed]
  | some box =>
    have found := session?_eq_some held
    rw [waiting_of_session found, (tells.known found).takes]
    by_cases own : box.topic = topic
    · subst own
      by_cases hears : box.listening
      · by_cases full : box.capacity ≤ box.waiting.length
        · simp [delivery, held, hears, full, Nat.not_lt_of_le full]
        · simp [delivery, held, hears, full, Nat.lt_of_not_le full]
      · simp [delivery, held, hears]
    · simp [faithful.sound.unlisted held own, own]

theorem Faithful.delivered (faithful : s.Faithful) (topic text : String) :
    ((s.hub.publish topic text).2.map (·.delivered)).getD 0 =
      ((List.range s.hub.nextId).filter fun id =>
        (s.record id).takes topic (s.hub.waiting id).length).length := by
  have distinct : (s.hub.taking topic).Nodup := (faithful.sound.distinct topic).filter _
  rw [delivered_eq]
  refine List.Perm.length_eq ?_
  rw [List.perm_ext_iff_of_nodup distinct (List.nodup_range.filter _)]
  intro id
  rw [List.mem_filter, List.mem_range, ← faithful.taking_iff topic id]
  refine ⟨fun member => ⟨?_, member⟩, fun both => both.2⟩
  obtain ⟨session, found, _⟩ :=
    (mem_sessions faithful.sound topic id).mp ((mem_taking topic id).mp member).1
  exact faithful.sound.lt_nextId found

end Chronicle

/-- What is left of an act if the session `id` is the only one, and so the first; `next` is the
number of the next session and `topic?` the topic of this one, once it is there. -/
def own? (id next : Nat) (topic? : Option String) : Act → Option Act
  | .subscribe topic capacity => if next = id then some (.subscribe topic capacity) else none
  | .unsubscribe topic i => if i = id then some (.unsubscribe topic 0) else none
  | .publish topic text => if topic? = some topic then some (.publish topic text) else none
  | .receive i => if i = id then some (.receive 0) else none
  | .leave i => if i = id then some (.leave 0) else none

def topicAfter (id next : Nat) (topic? : Option String) : Act → Option String
  | .subscribe topic _ => if next = id then some topic else topic?
  | _ => topic?

def alone (id : Nat) : (next : Nat) → (topic? : Option String) → List Act → List Act
  | _, _, [] => []
  | next, topic?, a :: rest =>
    (own? id next topic? a).toList ++
      alone id (next + a.numbers) (topicAfter id next topic? a) rest

namespace Chronicle

structure Alike (id : Nat) (topic? : Option String) (s solo : Chronicle) : Prop where
  session : s.hub.session? id = solo.hub.session? 0
  record : s.record id = solo.record 0
  number : solo.hub.nextId = if id < s.hub.nextId then 1 else 0
  topic : topic? = (s.hub.session? id).map (·.box.topic)

theorem alike_start (id : Nat) : Alike id none start start := ⟨rfl, rfl, rfl, rfl⟩

variable {id : Nat} {topic? : Option String} {s solo : Chronicle}

theorem topic_next (session? : Option Session) (next : Nat) (a : Act) :
    (Session.next id next a session?).map (·.box.topic) =
      topicAfter id next (session?.map (·.box.topic)) a := by
  cases a with
  | subscribe topic capacity =>
    rw [Session.next, topicAfter]
    by_cases own : id = next
    · rw [if_pos own, if_pos own.symm]
      rfl
    · rw [if_neg own, if_neg (Ne.symm own)]
  | unsubscribe topic i =>
    change _ = session?.map (·.box.topic)
    rw [Session.next]
    split <;> simp [Function.comp_def]
  | publish topic text =>
    change _ = session?.map (·.box.topic)
    simp [Session.next, Function.comp_def]
  | receive i =>
    change _ = session?.map (·.box.topic)
    rw [Session.next]
    split <;> simp [Function.comp_def]
  | leave i =>
    change _ = session?.map (·.box.topic)
    rw [Session.next]
    split <;> simp [Function.comp_def]

/-- An act that does not concern the session leaves it as it is. -/
theorem idle {h : Hub} {r : Record} (tells : r.Tells (h.session? id))
    (topic : topic? = (h.session? id).map (·.box.topic)) {a : Act}
    (other : own? id h.nextId topic? a = none) :
    Session.next id h.nextId a (h.session? id) = h.session? id ∧ h.note id r a = r ∧
      (id < h.nextId + a.numbers ↔ id < h.nextId) := by
  cases a with
  | subscribe name capacity =>
    have distinct : h.nextId ≠ id := by simpa [own?] using other
    refine ⟨if_neg (Ne.symm distinct), if_neg distinct, ?_⟩
    simp only [Act.numbers]
    omega
  | unsubscribe name i =>
    have distinct : i ≠ id := by simpa [own?] using other
    exact ⟨if_neg (Ne.symm distinct), if_neg fun both => distinct both.1, .rfl⟩
  | publish name text =>
    have foreign : topic? ≠ some name := by simpa [own?] using other
    rw [topic] at foreign
    rw [note, Session.next]
    cases found : h.session? id with
    | none =>
      have blank := tells.blank found
      exact ⟨rfl, if_neg (by simp [Record.takes, blank.subscribed]), .rfl⟩
    | some session =>
      rw [found] at foreign
      have foreign : session.box.topic ≠ name := fun same => foreign (congrArg some same)
      refine ⟨congrArg some (if_neg fun both => foreign both.2), if_neg ?_, .rfl⟩
      rw [waiting_of_session found, (tells.known found).takes]
      simp [foreign]
  | receive i =>
    have distinct : i ≠ id := by simpa [own?] using other
    exact ⟨if_neg (Ne.symm distinct), if_neg distinct, .rfl⟩
  | leave i =>
    have distinct : i ≠ id := by simpa [own?] using other
    exact ⟨if_neg (Ne.symm distinct), if_neg distinct, .rfl⟩

/-- An act that concerns the session does to it what it does to the session alone. -/
theorem concerned {h single : Hub} {a b : Act} (r : Record) (session? : Option Session)
    (waits : h.waiting id = single.waiting 0)
    (number : single.nextId = if id < h.nextId then 1 else 0)
    (own : own? id h.nextId topic? a = some b) :
    Session.next id h.nextId a session? = Session.next 0 single.nextId b session? ∧
      h.note id r a = single.note 0 r b ∧
      single.nextId + b.numbers = if id < h.nextId + a.numbers then 1 else 0 := by
  cases a with
  | subscribe name capacity =>
    obtain ⟨same, rfl⟩ := Option.ite_some_none_eq_some.mp own
    rw [same, if_neg (Nat.lt_irrefl id)] at number
    have next (t : Hub) : (t.subscribe name capacity).2 = t.nextId := rfl
    simp [Session.next, note, next, same, number, Act.numbers]
  | unsubscribe name i =>
    obtain ⟨same, rfl⟩ := Option.ite_some_none_eq_some.mp own
    exact ⟨by simp [Session.next, same], by simp [note, same], number⟩
  | publish name text =>
    obtain ⟨same, rfl⟩ := Option.ite_some_none_eq_some.mp own
    exact ⟨rfl, by rw [note, note, waits], number⟩
  | receive i =>
    obtain ⟨same, rfl⟩ := Option.ite_some_none_eq_some.mp own
    exact ⟨by simp [Session.next, same], by simp [note, same, texts_receive, waits], number⟩
  | leave i =>
    obtain ⟨same, rfl⟩ := Option.ite_some_none_eq_some.mp own
    exact ⟨by simp [Session.next, same], by simp [note, same, waits], number⟩

theorem Alike.step (alike : Alike id topic? s solo) (faithful : s.Faithful)
    (single : solo.Faithful) (a : Act) :
    Alike id (topicAfter id s.hub.nextId topic? a) (s.step a)
      ((own? id s.hub.nextId topic? a).toList.foldl step solo) := by
  have next : (s.step a).hub.session? id =
      Session.next id s.hub.nextId a (s.hub.session? id) := session?_act faithful.sound a id
  have number : (s.step a).hub.nextId = s.hub.nextId + a.numbers := nextId_act s.hub a
  have topic : topicAfter id s.hub.nextId topic? a =
      ((s.step a).hub.session? id).map (·.box.topic) := by
    rw [next, topic_next, alike.topic]
  cases own : own? id s.hub.nextId topic? a with
  | none =>
    obtain ⟨same, kept, numbers⟩ := idle (faithful.tells id) alike.topic own
    refine ⟨?_, ?_, ?_, topic⟩
    · rw [next, same]
      exact alike.session
    · exact kept.trans alike.record
    · rw [number]
      simp only [numbers]
      exact alike.number
  | some b =>
    have waits : s.hub.waiting id = solo.hub.waiting 0 := by
      rw [waiting_eq, waiting_eq, alike.session]
    obtain ⟨same, noted, numbers⟩ := concerned (s.record id) (s.hub.session? id) waits
      alike.number own
    refine ⟨?_, ?_, ?_, topic⟩
    · rw [next, same, alike.session]
      exact (session?_act single.sound b 0).symm
    · refine noted.trans ?_
      rw [alike.record]
      rfl
    · rw [number, ← numbers]
      exact nextId_act solo.hub b

theorem alike_fold (acts : List Act) (alike : Alike id topic? s solo) (faithful : s.Faithful)
    (single : solo.Faithful) :
    ∃ last?, Alike id last? (acts.foldl Chronicle.step s)
      ((alone id s.hub.nextId topic? acts).foldl Chronicle.step solo) := by
  induction acts generalizing topic? s solo with
  | nil => exact ⟨_, alike⟩
  | cons a rest ih =>
    rw [alone, List.foldl_append, ← nextId_act]
    exact ih (alike.step faithful single a) (faithful_step faithful a) (faithful_fold single _)

/-- What a session has received and what waits for it, or did when its owner left, are together just
what is due to it; a publisher is told how many sessions a text is due to; and a session gets what it
would get without any other session or topic. -/
theorem delivery_exact (acts : List Act) :
    let s := run acts
    (∀ id, let r := s.record id
      r.received ++ r.left.getD (s.hub.waiting id) = r.due) ∧
    (∀ topic text, ((s.hub.publish topic text).2.map (·.delivered)).getD 0 =
      ((List.range s.hub.nextId).filter fun id =>
        (s.record id).takes topic (s.hub.waiting id).length).length) ∧
    ∀ id, let solo := run (alone id 0 none acts)
      s.hub.waiting id = solo.hub.waiting 0 ∧ s.record id = solo.record 0 := by
  have faithful : (run acts).Faithful := faithful_fold faithful_start acts
  refine ⟨faithful.complete, faithful.delivered, fun id => ?_⟩
  obtain ⟨_, alike⟩ := alike_fold acts (alike_start id) faithful_start faithful_start
  refine ⟨?_, alike.record⟩
  rw [waiting_eq, waiting_eq]
  exact congrArg (fun session? => (session?.map (·.box.waiting)).getD []) alike.session

end Chronicle

end NotificationRelay.Hub
