import NotificationRelay.Hub
import NotificationRelay.Proofs.Store

/-! Sessions of a hub. A hub is its sessions side by side: what an act makes of a session follows
from that session alone, whatever else there is on the hub. -/
namespace NotificationRelay.Hub

inductive Act where
  | subscribe (topic : String) (capacity : Nat)
  | unsubscribe (topic : String) (id : Nat)
  | publish (topic text : String)
  | receive (id : Nat)
  | leave (id : Nat)
deriving DecidableEq, Repr

def act (h : Hub) : Act → Hub
  | .subscribe topic capacity => (h.subscribe topic capacity).1
  | .unsubscribe topic id => h.unsubscribe topic id
  | .publish topic text => (h.publish topic text).1
  | .receive id => (h.receive id).1
  | .leave id => h.leave id

def Act.numbers : Act → Nat
  | .subscribe .. => 1
  | _ => 0

structure Session where
  box : Mailbox
  subscribed : Bool
deriving DecidableEq, Repr

namespace Session

def unsubscribe (s : Session) (topic : String) : Session :=
  if s.box.topic = topic then { s with subscribed := false } else s

def publish (s : Session) (topic text : String) : Session :=
  if s.subscribed ∧ s.box.topic = topic then
    if !s.box.listening then { s with subscribed := false }
    else if s.box.capacity ≤ s.box.waiting.length then s
    else { s with box.waiting := s.box.waiting ++ [text] }
  else s

def receive (s : Session) : Session := { s with box.waiting := s.box.waiting.tail }

def leave (s : Session) : Session := { s with box.waiting := [], box.listening := false }

@[simp]
theorem box_unsubscribe (s : Session) (topic : String) : (s.unsubscribe topic).box = s.box := by
  unfold unsubscribe
  split <;> rfl

theorem subscribed_unsubscribe (s : Session) (topic : String) :
    (s.unsubscribe topic).subscribed = (s.subscribed && s.box.topic ≠ topic) := by
  unfold unsubscribe
  split <;> simp [*]

/-- A text that is published can only change what waits. -/
theorem box_publish (s : Session) (topic text : String) :
    ∃ waiting, (s.publish topic text).box = { s.box with waiting } := by
  unfold publish
  split
  · split
    · exact ⟨_, rfl⟩
    · split <;> exact ⟨_, rfl⟩
  · exact ⟨_, rfl⟩

@[simp]
theorem topic_publish (s : Session) (topic text : String) :
    (s.publish topic text).box.topic = s.box.topic := by
  obtain ⟨waiting, same⟩ := s.box_publish topic text
  rw [same]

theorem listening_publish (s : Session) (topic text : String) :
    (s.publish topic text).box.listening = s.box.listening := by
  obtain ⟨waiting, same⟩ := s.box_publish topic text
  rw [same]

/-- A text takes off the hub whoever should get it and is gone. -/
theorem subscribed_publish (s : Session) (topic text : String) :
    (s.publish topic text).subscribed =
      (s.subscribed && (s.box.listening || s.box.topic ≠ topic)) := by
  unfold publish
  by_cases own : s.subscribed ∧ s.box.topic = topic
  · cases hears : s.box.listening with
    | false => simp [own]
    | true =>
      rw [if_pos own]
      simp only [Bool.not_true, Bool.false_eq_true, if_false, Bool.true_or, Bool.and_true]
      split <;> rfl
  · rw [if_neg own]
    by_cases registered : s.subscribed <;> simp_all

@[simp]
theorem topic_receive (s : Session) : s.receive.box.topic = s.box.topic := rfl

@[simp]
theorem topic_leave (s : Session) : s.leave.box.topic = s.box.topic := rfl

/-- What an act makes of the session `id`; `fresh` is the number of the next one. -/
def next (id fresh : Nat) : Act → Option Session → Option Session
  | .subscribe topic capacity, s? =>
    if id = fresh then some ⟨⟨topic, max capacity 1, [], true⟩, true⟩ else s?
  | .unsubscribe topic i, s? => if id = i then s?.map (·.unsubscribe topic) else s?
  | .publish topic text, s? => s?.map (·.publish topic text)
  | .receive i, s? => if id = i then s?.map receive else s?
  | .leave i, s? => if id = i then s?.map leave else s?

end Session

def session? (h : Hub) (id : Nat) : Option Session :=
  (h.mailboxes.get? id).map fun box => ⟨box, (h.sessions box.topic).contains id⟩

def topicOf? (h : Hub) (id : Nat) : Option String := (h.mailboxes.get? id).map (·.topic)

structure Sound (h : Hub) : Prop where
  known : ∀ id, (h.topicOf? id).isSome → id < h.nextId
  listed : ∀ topic, ∀ id ∈ h.sessions topic, h.topicOf? id = some topic
  distinct : ∀ topic, (h.sessions topic).Nodup

theorem sound_empty : empty.Sound where
  known _ some := nomatch some
  listed _ _ member := nomatch member
  distinct _ := .nil

section

variable {h : Hub}

/-- Nothing new and no other topics: a hub stays sound. -/
theorem Sound.narrow (sound : h.Sound) {h' : Hub} (next : h'.nextId = h.nextId)
    (topics : ∀ id, h'.topicOf? id = h.topicOf? id)
    (fewer : ∀ topic, (h'.sessions topic).Sublist (h.sessions topic)) : h'.Sound where
  known id some := by
    rw [next]
    exact sound.known id (topics id ▸ some)
  listed topic id member := by
    rw [topics]
    exact sound.listed topic id ((fewer topic).subset member)
  distinct topic := (sound.distinct topic).sublist (fewer topic)

theorem Sound.unlisted (sound : h.Sound) {id : Nat} {box : Mailbox} {topic : String}
    (held : h.mailboxes.get? id = some box) (other : box.topic ≠ topic) :
    id ∉ h.sessions topic := by
  intro member
  have own := sound.listed topic id member
  rw [topicOf?, held] at own
  exact other (Option.some.inj own)

/-! Each step by what it does to the lists and to the mailboxes. -/

theorem sessions_subscribe (h : Hub) (topic other : String) (capacity : Nat) :
    (h.subscribe topic capacity).1.sessions other =
      if other = topic then h.sessions topic ++ [h.nextId] else h.sessions other := by
  unfold subscribe sessions
  rw [Store.get?_insert]
  split <;> rfl

theorem mailbox_subscribe (h : Hub) (topic : String) (capacity id : Nat) :
    (h.subscribe topic capacity).1.mailboxes.get? id =
      if id = h.nextId then some ⟨topic, max capacity 1, [], true⟩ else h.mailboxes.get? id :=
  Store.get?_insert _ _ _ _

theorem getD_keepSessions (ids : List Nat) : (keepSessions ids).getD [] = ids := by
  unfold keepSessions
  split
  · rename_i none
    exact (List.isEmpty_iff.mp none).symm
  · rfl

theorem sessions_remove (h : Hub) (topic other : String) (gone : Nat → Bool) :
    (h.remove topic gone).sessions other =
      if other = topic then (h.sessions topic).filter fun id => !gone id
      else h.sessions other := by
  unfold remove sessions
  rw [Store.get?_alter]
  split
  · cases h.topics.get? topic with
    | none => rfl
    | some ids => exact getD_keepSessions _
  · rfl

theorem sessions_remove_sublist (h : Hub) (topic other : String) (gone : Nat → Bool) :
    ((h.remove topic gone).sessions other).Sublist (h.sessions other) := by
  rw [sessions_remove]
  split
  · rename_i same
    exact same ▸ List.filter_sublist
  · exact .refl _

theorem topics_put (text : String) (ids : List Nat) (h : Hub) :
    (ids.foldl (put text) h).topics = h.topics := by
  induction ids generalizing h with
  | nil => rfl
  | cons id rest ih => exact ih _

theorem nextId_put (text : String) (ids : List Nat) (h : Hub) :
    (ids.foldl (put text) h).nextId = h.nextId := by
  induction ids generalizing h with
  | nil => rfl
  | cons id rest ih => exact ih _

/-- A text goes into each mailbox once. -/
theorem mailbox_put (text : String) {ids : List Nat} (distinct : ids.Nodup) (h : Hub) (id : Nat) :
    (ids.foldl (put text) h).mailboxes.get? id =
      if id ∈ ids then (h.mailboxes.get? id).map fun box =>
        { box with waiting := box.waiting ++ [text] }
      else h.mailboxes.get? id := by
  induction ids generalizing h with
  | nil => rfl
  | cons first rest ih =>
    obtain ⟨absent, distinct⟩ := List.nodup_cons.mp distinct
    rw [List.foldl_cons, ih distinct, put, Store.get?_alter]
    by_cases same : id = first
    · subst same
      rw [if_neg absent, if_pos rfl, if_pos List.mem_cons_self]
    · rw [if_neg same]
      simp [same]

/-- The sessions that take a text published on the topic. -/
def taking (h : Hub) (topic : String) : List Nat :=
  (h.sessions topic).filter fun id => h.delivery id = .delivered

theorem publish_eq (h : Hub) (topic text : String) :
    h.publish topic text = (h, none) ∧ h.sessions topic = [] ∨
      (h.publish topic text).1 = ((h.taking topic).foldl (put text) h).remove topic
          (fun id => h.delivery id = .closed) ∧
        ((h.publish topic text).2.map (·.delivered)) = some (h.taking topic).length := by
  unfold publish taking sessions
  cases h.topics.get? topic with
  | none => exact .inl ⟨rfl, rfl⟩
  | some ids => exact .inr ⟨rfl, rfl⟩

/-- What is told to the publisher. -/
theorem delivered_eq (h : Hub) (topic text : String) :
    ((h.publish topic text).2.map (·.delivered)).getD 0 = (h.taking topic).length := by
  obtain ⟨same, none⟩ | ⟨_, told⟩ := h.publish_eq topic text
  · rw [same, taking, none]
    rfl
  · rw [told]
    rfl

theorem mailbox_publish (sound : h.Sound) (topic text : String) (id : Nat) :
    (h.publish topic text).1.mailboxes.get? id =
      if id ∈ h.taking topic then (h.mailboxes.get? id).map fun box =>
        { box with waiting := box.waiting ++ [text] }
      else h.mailboxes.get? id := by
  obtain ⟨same, none⟩ | ⟨same, _⟩ := h.publish_eq topic text
  · rw [same, taking, none]
    rfl
  · rw [same]
    exact mailbox_put text ((sound.distinct topic).filter _) h id

theorem sessions_publish (h : Hub) (topic text other : String) :
    (h.publish topic text).1.sessions other =
      if other = topic then (h.sessions topic).filter fun id => h.delivery id ≠ .closed
      else h.sessions other := by
  obtain ⟨same, none⟩ | ⟨same, _⟩ := h.publish_eq topic text
  · rw [same]
    split
    · rename_i own
      rw [own, none]
      rfl
    · rfl
  · rw [same, sessions_remove]
    simp only [sessions, topics_put, decide_not]

/-- What is read is the oldest text that waits. -/
theorem receive_waiting {i : Nat} {box : Mailbox} {text : String} {rest : List String}
    (held : h.mailboxes.get? i = some box) (waits : box.waiting = text :: rest) :
    h.receive i =
      ({ h with mailboxes := h.mailboxes.insert i { box with waiting := rest } }, .text text) := by
  unfold receive
  rw [held]
  dsimp only
  rw [waits]

theorem receive_nothing {i : Nat} (empty : ∀ box, h.mailboxes.get? i = some box → box.waiting = []) :
    (h.receive i).1 = h ∧ ∀ text, (h.receive i).2 ≠ .text text := by
  unfold receive
  cases held : h.mailboxes.get? i with
  | none => exact ⟨rfl, by simp⟩
  | some box =>
    dsimp only
    rw [empty box held]
    dsimp only
    exact ⟨rfl, by split <;> simp⟩

/-- There is a text to read, or nothing happens. -/
theorem receive_cases (h : Hub) (i : Nat) :
    (∃ box text rest, h.mailboxes.get? i = some box ∧ box.waiting = text :: rest) ∨
      ∀ box, h.mailboxes.get? i = some box → box.waiting = [] := by
  cases held : h.mailboxes.get? i with
  | none => exact .inr fun _ some => nomatch some
  | some box =>
    cases waits : box.waiting with
    | nil => exact .inr fun _ same => Option.some.inj same ▸ waits
    | cons text rest => exact .inl ⟨box, text, rest, rfl, waits⟩

theorem mailbox_receive (h : Hub) (i id : Nat) :
    (h.receive i).1.mailboxes.get? id =
      if id = i then (h.mailboxes.get? i).map fun box => { box with waiting := box.waiting.tail }
      else h.mailboxes.get? id := by
  obtain ⟨box, text, rest, held, waits⟩ | empty := h.receive_cases i
  · rw [receive_waiting held waits, held, Option.map_some, waits]
    exact Store.get?_insert _ _ _ _
  · rw [(receive_nothing empty).1]
    split
    · rename_i same
      rw [same]
      cases held : h.mailboxes.get? i with
      | none => rfl
      | some box => rw [Option.map_some, empty box held, List.tail_nil, ← empty box held]
    · rfl

theorem topics_receive (h : Hub) (i : Nat) :
    (h.receive i).1.topics = h.topics ∧ (h.receive i).1.nextId = h.nextId := by
  obtain ⟨box, text, rest, held, waits⟩ | empty := h.receive_cases i
  · rw [receive_waiting held waits]
    exact ⟨rfl, rfl⟩
  · rw [(receive_nothing empty).1]
    exact ⟨rfl, rfl⟩

theorem mailbox_leave (h : Hub) (i id : Nat) :
    (h.leave i).mailboxes.get? id =
      if id = i then (h.mailboxes.get? i).map fun box =>
        { box with waiting := [], listening := false }
      else h.mailboxes.get? id :=
  Store.get?_alter _ _ _ _

theorem topicOf?_publish (sound : h.Sound) (topic text : String) (id : Nat) :
    (h.publish topic text).1.topicOf? id = h.topicOf? id := by
  rw [topicOf?, mailbox_publish sound]
  split
  · rw [Option.map_map]
    rfl
  · rfl

theorem nextId_publish (h : Hub) (topic text : String) :
    (h.publish topic text).1.nextId = h.nextId := by
  obtain ⟨same, _⟩ | ⟨same, _⟩ := h.publish_eq topic text
  · rw [same]
  · rw [same]
    exact nextId_put text _ h

theorem topicOf?_receive (h : Hub) (i id : Nat) :
    (h.receive i).1.topicOf? id = h.topicOf? id := by
  rw [topicOf?, mailbox_receive]
  split
  · rename_i same
    rw [same, Option.map_map]
    rfl
  · rfl

theorem topicOf?_leave (h : Hub) (i id : Nat) : (h.leave i).topicOf? id = h.topicOf? id := by
  rw [topicOf?, mailbox_leave]
  split
  · rename_i same
    rw [same, Option.map_map]
    rfl
  · rfl

theorem Sound.fresh_not_listed (sound : h.Sound) (topic : String) : h.nextId ∉ h.sessions topic := by
  intro member
  have own := sound.listed topic _ member
  exact Nat.lt_irrefl _ (sound.known _ (own ▸ rfl))

theorem Sound.subscribe (sound : h.Sound) (topic : String) (capacity : Nat) :
    (h.subscribe topic capacity).1.Sound := by
  have topics (id : Nat) : (h.subscribe topic capacity).1.topicOf? id =
      if id = h.nextId then some topic else h.topicOf? id := by
    rw [topicOf?, mailbox_subscribe]
    split <;> rfl
  refine ⟨fun id some => ?_, fun other id member => ?_, fun other => ?_⟩
  · rw [topics] at some
    change id < h.nextId + 1
    split at some
    · omega
    · have := sound.known id some
      omega
  · rw [topics]
    rw [sessions_subscribe] at member
    by_cases own : other = topic
    · rw [if_pos own, List.mem_append, List.mem_singleton] at member
      rcases member with member | rfl
      · have before := sound.listed topic id member
        have old : id ≠ h.nextId := fun same => sound.fresh_not_listed topic (same ▸ member)
        rw [if_neg old, own]
        exact before
      · rw [if_pos rfl, own]
    · rw [if_neg own] at member
      have old : id ≠ h.nextId := fun same => sound.fresh_not_listed other (same ▸ member)
      rw [if_neg old]
      exact sound.listed other id member
  · rw [sessions_subscribe]
    split
    · refine List.nodup_append.mpr ⟨sound.distinct topic, by simp, ?_⟩
      intro id member last single same
      rw [List.mem_singleton] at single
      exact sound.fresh_not_listed topic (single ▸ same ▸ member)
    · exact sound.distinct other

theorem sound_act (sound : h.Sound) (a : Act) : (h.act a).Sound := by
  cases a with
  | subscribe topic capacity => exact sound.subscribe topic capacity
  | unsubscribe topic id =>
    exact sound.narrow rfl (fun _ => rfl) fun other => sessions_remove_sublist h topic other _
  | publish topic text =>
    refine sound.narrow (h.nextId_publish topic text) (topicOf?_publish sound topic text)
      fun other => ?_
    rw [act, sessions_publish]
    split
    · rename_i same
      exact same ▸ List.filter_sublist
    · exact .refl _
  | receive id =>
    refine sound.narrow (h.topics_receive id).2 (h.topicOf?_receive id) fun other => ?_
    rw [act, sessions, (h.topics_receive id).1]
    exact .refl _
  | leave id => exact sound.narrow rfl (h.topicOf?_leave id) fun _ => .refl _

/-! What an act makes of one session. -/

theorem session?_subscribe (h : Hub) (topic : String) (capacity id : Nat) :
    (h.subscribe topic capacity).1.session? id =
      Session.next id h.nextId (.subscribe topic capacity) (h.session? id) := by
  rw [session?, mailbox_subscribe, Session.next]
  split
  · rename_i same
    rw [Option.map_some, sessions_subscribe, if_pos rfl, same]
    simp
  · rename_i old
    refine congrArg (Option.map · (h.mailboxes.get? id)) (funext fun box => ?_)
    rw [sessions_subscribe]
    split
    · rename_i own
      simp [own, old]
    · rfl

theorem session?_unsubscribe (h : Hub) (topic : String) (i id : Nat) :
    (h.unsubscribe topic i).session? id =
      Session.next id h.nextId (.unsubscribe topic i) (h.session? id) := by
  have lists (box : Mailbox) : ((h.unsubscribe topic i).sessions box.topic).contains id =
      ((h.sessions box.topic).contains id && !(decide (box.topic = topic ∧ id = i))) := by
    rw [unsubscribe, sessions_remove]
    by_cases own : box.topic = topic
    · by_cases same : id = i <;> simp [own, same]
    · simp [own]
  have boxes : (h.unsubscribe topic i).mailboxes = h.mailboxes := rfl
  rw [session?, boxes, Session.next, session?]
  simp only [lists]
  by_cases same : id = i
  · rw [if_pos same, Option.map_map]
    refine congrArg (Option.map · (h.mailboxes.get? id)) (funext fun box => ?_)
    by_cases own : box.topic = topic <;> simp [Session.unsubscribe, own, same]
  · rw [if_neg same]
    simp [same]

theorem mem_taking (topic : String) (id : Nat) :
    id ∈ h.taking topic ↔ id ∈ h.sessions topic ∧ h.delivery id = .delivered := by
  rw [taking, List.mem_filter, decide_eq_true_eq]

theorem session?_publish (sound : h.Sound) (topic text : String) (id : Nat) :
    (h.publish topic text).1.session? id =
      Session.next id h.nextId (.publish topic text) (h.session? id) := by
  rw [session?, mailbox_publish sound, Session.next, session?]
  cases held : h.mailboxes.get? id with
  | none => split <;> rfl
  | some box =>
    by_cases own : box.topic = topic
    · subst own
      have listed : id ∈ (h.publish box.topic text).1.sessions box.topic ↔
          id ∈ h.sessions box.topic ∧ h.delivery id ≠ .closed := by
        rw [sessions_publish, if_pos rfl, List.mem_filter, decide_eq_true_eq]
      by_cases among : id ∈ h.sessions box.topic
      · by_cases hears : box.listening
        · by_cases full : box.capacity ≤ box.waiting.length <;>
            simp [mem_taking, delivery, held, Session.publish, listed, among, hears, full]
        · simp [mem_taking, delivery, held, Session.publish, listed, among, hears]
      · simp [mem_taking, Session.publish, listed, among]
    · have other : id ∉ h.sessions topic := sound.unlisted held own
      have lists : (h.publish topic text).1.sessions box.topic = h.sessions box.topic := by
        rw [sessions_publish, if_neg own]
      simp [mem_taking, other, Session.publish, own, lists]

theorem session?_receive (h : Hub) (i id : Nat) :
    (h.receive i).1.session? id = Session.next id h.nextId (.receive i) (h.session? id) := by
  have lists (topic : String) : (h.receive i).1.sessions topic = h.sessions topic := by
    rw [sessions, (h.topics_receive i).1, sessions]
  rw [session?, mailbox_receive, Session.next]
  simp only [lists]
  split
  · rename_i same
    rw [same, session?, Option.map_map, Option.map_map]
    rfl
  · rfl

theorem session?_leave (h : Hub) (i id : Nat) :
    (h.leave i).session? id = Session.next id h.nextId (.leave i) (h.session? id) := by
  have lists (topic : String) : (h.leave i).sessions topic = h.sessions topic := rfl
  rw [session?, mailbox_leave, Session.next]
  simp only [lists]
  split
  · rename_i same
    rw [same, session?, Option.map_map, Option.map_map]
    rfl
  · rfl

/-- An act makes of each session what it makes of it alone. -/
theorem session?_act (sound : h.Sound) (a : Act) (id : Nat) :
    (h.act a).session? id = Session.next id h.nextId a (h.session? id) := by
  cases a with
  | subscribe topic capacity => exact h.session?_subscribe topic capacity id
  | unsubscribe topic i => exact h.session?_unsubscribe topic i id
  | publish topic text => exact session?_publish sound topic text id
  | receive i => exact h.session?_receive i id
  | leave i => exact h.session?_leave i id

theorem mem_sessions (sound : h.Sound) (topic : String) (id : Nat) :
    id ∈ h.sessions topic ↔
      ∃ s, h.session? id = some s ∧ s.subscribed = true ∧ s.box.topic = topic := by
  constructor
  · intro member
    obtain ⟨box, found, rfl⟩ := Option.map_eq_some_iff.mp (sound.listed topic id member)
    refine ⟨⟨box, _⟩, ?_, List.contains_iff_mem.mpr member, rfl⟩
    rw [session?, found]
    rfl
  · rintro ⟨s, found, subscribed, rfl⟩
    obtain ⟨box, _, rfl⟩ := Option.map_eq_some_iff.mp found
    exact List.contains_iff_mem.mp subscribed

theorem Sound.lt_nextId (sound : h.Sound) {id : Nat} {s : Session} (found : h.session? id = some s) :
    id < h.nextId := by
  obtain ⟨box, there, _⟩ := Option.map_eq_some_iff.mp found
  refine sound.known id ?_
  rw [topicOf?, there]
  rfl

theorem nextId_act (h : Hub) (a : Act) : (h.act a).nextId = h.nextId + a.numbers := by
  cases a with
  | subscribe topic capacity => rfl
  | unsubscribe topic i => rfl
  | publish topic text => exact h.nextId_publish topic text
  | receive i => exact (h.topics_receive i).2
  | leave i => rfl

theorem session?_drain (h : Hub) (i id : Nat) :
    (h.drain i).1.session? id =
      (h.session? id).map fun s => if id = i then { s with box.waiting := [] } else s := by
  unfold drain
  cases found : h.mailboxes.get? i with
  | none =>
    by_cases same : id = i
    · rw [same, session?, found]
      rfl
    · simp [same]
  | some box =>
    dsimp only
    rw [session?, Store.get?_insert, session?]
    by_cases same : id = i
    · rw [same, found, if_pos rfl]
      simp [sessions]
    · rw [if_neg same]
      simp only [same, if_false, Option.map_id']
      rfl

theorem Sound.drain (sound : h.Sound) (i : Nat) : (h.drain i).1.Sound := by
  have frame : (h.drain i).1.nextId = h.nextId ∧ (h.drain i).1.topics = h.topics := by
    unfold Hub.drain
    split <;> exact ⟨rfl, rfl⟩
  have topics (other : Hub) (id : Nat) :
      other.topicOf? id = (other.session? id).map (·.box.topic) := by
    rw [topicOf?, session?, Option.map_map]
    rfl
  refine sound.narrow frame.1 (fun id => ?_) fun topic => ?_
  · rw [topics, session?_drain, topics, Option.map_map]
    refine congrArg (Option.map · _) (funext fun s => ?_)
    dsimp only [Function.comp]
    split <;> rfl
  · rw [sessions, frame.2]
    exact .refl _

end

end NotificationRelay.Hub
