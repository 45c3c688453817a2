import Mathlib.Data.List.Nodup
import Mathlib.Data.List.Perm.Basic
import NotificationRelay.Proofs.Hub.Session
import NotificationRelay.Proofs.Tally

/-! The books of a hub. Which sessions are registered follows from the acts since their
subscriptions, and a hub lists just these, each under its own topic, and counts them. -/
namespace NotificationRelay.Hub

def run (acts : List Act) : Hub := acts.foldl act empty

def subscriptions (acts : List Act) : Nat := total (acts.map Act.numbers)

/-! Numbers from a counter of 64 bits, which starts again at zero. -/

def wrap (h : Hub) : Hub := { h with nextId := h.nextId % twoTo 64 }

def actWrapped (h : Hub) (a : Act) : Hub := (h.act a).wrap

def number? (h : Hub) : Act → Option Nat
  | .subscribe topic capacity => some (h.subscribe topic capacity).2
  | _ => none

def issued (h : Hub) : List Act → List Nat
  | [] => []
  | a :: rest => (h.number? a).toList ++ (h.actWrapped a).issued rest

/-! Sessions by what was done. -/

structure Enrolment where
  id : Nat
  topic : String
  since : List Act
deriving DecidableEq, Repr

/-- The subscriptions among the acts; `next` is the number of the first. -/
def enrolments (next : Nat) : List Act → List Enrolment
  | [] => []
  | .subscribe topic _ :: rest => ⟨next, topic, rest⟩ :: enrolments (next + 1) rest
  | _ :: rest => enrolments next rest

/-- The session was unsubscribed from its own topic, or its owner went and then a text was
published there. -/
def Enrolment.Ended (e : Enrolment) : Prop :=
  .unsubscribe e.topic e.id ∈ e.since ∨
    ∃ text, [.leave e.id, .publish e.topic text].Sublist e.since

section

variable (topic : String) (id : Nat)

def stillHere (here : Bool) : Act → Bool
  | .leave i => here && id ≠ i
  | _ => here

/-- Whether an act leaves a session registered whose owner is there or is not. -/
def spares (here : Bool) : Act → Bool
  | .unsubscribe name i => !(topic = name && id = i)
  | .publish name _ => here || topic ≠ name
  | _ => true

def outlasts : (here : Bool) → List Act → Bool
  | _, [] => true
  | here, a :: rest => spares topic id here a && outlasts (stillHere id here a) rest

/-- A session without its owner ends with the first text published on its topic. -/
theorem outlasts_false_iff (acts : List Act) :
    outlasts topic id false acts = true ↔
      .unsubscribe topic id ∉ acts ∧ ∀ text, .publish topic text ∉ acts := by
  induction acts with
  | nil => simp [outlasts]
  | cons a rest ih =>
    have gone : stillHere id false a = false := by cases a <;> rfl
    rw [outlasts, gone, Bool.and_eq_true, ih]
    cases a with
    | unsubscribe name i => by_cases own : topic = name <;> simp [spares, own, and_assoc]
    | publish name text =>
      by_cases own : topic = name
      · have found : ¬∀ t, .publish topic t ∉ Act.publish name text :: rest :=
          fun absent => absent text (own ▸ List.mem_cons_self)
        rw [iff_false_right fun both => found both.2]
        simp [spares, own]
      · simp [spares, own]
    | _ => simp [spares]

theorem outlasts_true_iff (acts : List Act) :
    outlasts topic id true acts = true ↔
      .unsubscribe topic id ∉ acts ∧
        ∀ text, ¬[.leave id, .publish topic text].Sublist acts := by
  induction acts with
  | nil => simp [outlasts]
  | cons a rest ih =>
    rw [outlasts, Bool.and_eq_true]
    cases a with
    | unsubscribe name i =>
      rcases eq_or_ne topic name with rfl | other
      · simp [spares, stillHere, ih, List.cons_sublist_cons', and_assoc]
      · simp [spares, stillHere, other, ih, List.cons_sublist_cons']
    | leave i =>
      by_cases own : id = i
      · simp [spares, stillHere, outlasts_false_iff, own]
      · simp [spares, stillHere, own, ih, List.cons_sublist_cons']
    | _ => simp [spares, stillHere, ih, List.cons_sublist_cons']

end

theorem Enrolment.not_ended_iff (e : Enrolment) :
    ¬e.Ended ↔ outlasts e.topic e.id true e.since = true := by
  rw [outlasts_true_iff, Ended, not_or, not_exists]

instance (e : Enrolment) : Decidable e.Ended :=
  decidable_of_iff (outlasts e.topic e.id true e.since = false) <| by
    rw [← Bool.not_eq_true, ← e.not_ended_iff, not_not]

def registered (acts : List Act) : List Enrolment :=
  (enrolments 0 acts).filter fun e => ¬e.Ended

theorem subscriptions_cons (a : Act) (rest : List Act) :
    subscriptions (a :: rest) = a.numbers + subscriptions rest := rfl

/-- Sessions are numbered in turn. -/
theorem ids_enrolments (next : Nat) (acts : List Act) :
    (enrolments next acts).map (·.id) = List.range' next (subscriptions acts) := by
  induction acts generalizing next with
  | nil => rfl
  | cons a rest ih =>
    rw [subscriptions_cons]
    cases a with
    | subscribe topic capacity =>
      rw [enrolments, List.map_cons, ih, Act.numbers, Nat.add_comm 1, List.range'_succ]
    | _ => exact (ih next).trans (congrArg (List.range' next) (Nat.zero_add _).symm)

section

variable {h : Hub}

theorem actWrapped_eq {a : Act} (few : h.nextId + a.numbers < twoTo 64) :
    h.actWrapped a = h.act a := by
  rw [← h.nextId_act] at few
  rw [actWrapped, wrap, Nat.mod_eq_of_lt few]

/-- A counter of 64 bits does as well until it starts again. -/
theorem foldl_actWrapped {acts : List Act} (few : h.nextId + subscriptions acts < twoTo 64) :
    acts.foldl actWrapped h = acts.foldl act h ∧
      h.issued acts = List.range' h.nextId (subscriptions acts) := by
  induction acts generalizing h with
  | nil => exact ⟨rfl, rfl⟩
  | cons a rest ih =>
    rw [subscriptions_cons, ← Nat.add_assoc] at few
    have same : h.actWrapped a = h.act a :=
      actWrapped_eq (Nat.lt_of_le_of_lt (Nat.le_add_right ..) few)
    rw [← nextId_act] at few
    obtain ⟨hubs, numbers⟩ := ih few
    have first : (h.number? a).toList = List.range' h.nextId a.numbers := by cases a <;> rfl
    rw [List.foldl_cons, List.foldl_cons, same, issued, same, numbers, first, nextId_act,
      subscriptions_cons, List.range'_append_1]
    exact ⟨hubs, rfl⟩

/-! A session from its subscription on. -/

theorem nextId_fold (h : Hub) (acts : List Act) :
    (acts.foldl act h).nextId = h.nextId + subscriptions acts := by
  induction acts generalizing h with
  | nil => rfl
  | cons a rest ih =>
    rw [List.foldl_cons, ih, nextId_act, subscriptions_cons, Nat.add_assoc]

theorem sound_fold (sound : h.Sound) (acts : List Act) : (acts.foldl act h).Sound := by
  induction acts generalizing h with
  | nil => exact sound
  | cons a rest ih => exact ih (sound_act sound a)

/-- What an act makes of a session that is there. -/
theorem Session.next_known {id fresh : Nat} (old : id ≠ fresh) (s : Session) (a : Act) :
    ∃ s', Session.next id fresh a (some s) = some s' ∧ s'.box.topic = s.box.topic ∧
      s'.box.listening = stillHere id s.box.listening a ∧
      s'.subscribed = (s.subscribed && spares s.box.topic id s.box.listening a) := by
  cases a with
  | subscribe topic capacity => exact ⟨s, if_neg old, rfl, rfl, (Bool.and_true _).symm⟩
  | unsubscribe topic i =>
    by_cases own : id = i
    · refine ⟨s.unsubscribe topic, if_pos own, congrArg _ (s.box_unsubscribe topic),
        congrArg _ (s.box_unsubscribe topic), ?_⟩
      simp [Session.subscribed_unsubscribe, spares, own]
    · exact ⟨s, if_neg own, rfl, rfl, by simp [spares, own]⟩
  | publish topic text =>
    exact ⟨s.publish topic text, rfl, s.topic_publish topic text, s.listening_publish topic text,
      s.subscribed_publish topic text⟩
  | receive i =>
    by_cases own : id = i
    · exact ⟨s.receive, if_pos own, rfl, rfl, (Bool.and_true _).symm⟩
    · exact ⟨s, if_neg own, rfl, rfl, (Bool.and_true _).symm⟩
  | leave i =>
    by_cases own : id = i
    · exact ⟨s.leave, if_pos own, rfl, by simp [stillHere, own, Session.leave],
        (Bool.and_true _).symm⟩
    · exact ⟨s, if_neg own, rfl, by simp [stillHere, own], (Bool.and_true _).symm⟩

/-- A session that is there stays registered as long as it outlasts the acts. -/
theorem session?_fold (sound : h.Sound) {id : Nat} {s : Session} (found : h.session? id = some s)
    (acts : List Act) :
    ∃ s', (acts.foldl act h).session? id = some s' ∧ s'.box.topic = s.box.topic ∧
      s'.subscribed = (s.subscribed && outlasts s.box.topic id s.box.listening acts) := by
  induction acts generalizing h s with
  | nil => exact ⟨s, found, rfl, (Bool.and_true _).symm⟩
  | cons a rest ih =>
    have old : id ≠ h.nextId := Nat.ne_of_lt (sound.lt_nextId found)
    obtain ⟨next, step, topic, here, subscribed⟩ := Session.next_known old s a
    have found : (h.act a).session? id = some next := by
      rw [session?_act sound, found, step]
    obtain ⟨last, final, same, registered⟩ := ih (sound_act sound a) found
    refine ⟨last, final, same.trans topic, ?_⟩
    rw [registered, subscribed, topic, here, outlasts, Bool.and_assoc]

/-- What has become of the sessions subscribed along the acts. -/
theorem session?_of_mem_enrolments (sound : h.Sound) {acts : List Act} {e : Enrolment}
    (member : e ∈ enrolments h.nextId acts) :
    ∃ s, (acts.foldl act h).session? e.id = some s ∧ s.box.topic = e.topic ∧
      (s.subscribed = true ↔ ¬e.Ended) := by
  induction acts generalizing h with
  | nil => cases member
  | cons a rest ih =>
    have next : (h.act a).nextId = h.nextId + a.numbers := h.nextId_act a
    have later := ih (sound_act sound a)
    rw [next] at later
    cases a with
    | subscribe topic capacity =>
      rcases List.mem_cons.mp member with rfl | member
      · have born : (h.act (.subscribe topic capacity)).session? h.nextId =
            some ⟨⟨topic, max capacity 1, [], true⟩, true⟩ :=
          (h.session?_subscribe topic capacity h.nextId).trans (if_pos rfl)
        obtain ⟨s, found, same, subscribed⟩ :=
          session?_fold (sound_act sound (.subscribe topic capacity)) born rest
        exact ⟨s, found, same, by rw [Enrolment.not_ended_iff, subscribed, Bool.true_and]⟩
      · exact later member
    | _ => exact later member

/-! The lists of a hub. -/

def Kept (h : Hub) : Prop := ∀ topic, h.topics.get? topic ≠ some []

theorem kept_empty : empty.Kept := fun _ stored => nomatch stored

theorem keepSessions_ne (ids : List Nat) : keepSessions ids ≠ some [] := by
  unfold keepSessions
  split
  · simp
  · rename_i some
    intro same
    exact some (Option.some.inj same ▸ rfl)

theorem Kept.of_topics (kept : h.Kept) {h' : Hub} (same : h'.topics = h.topics) : h'.Kept := by
  unfold Kept
  rw [same]
  exact kept

theorem Kept.remove (kept : h.Kept) (topic : String) (gone : Nat → Bool) :
    (h.remove topic gone).Kept := by
  intro other
  rw [Hub.remove, Store.get?_alter]
  split
  · cases h.topics.get? topic with
    | none => simp
    | some ids => exact keepSessions_ne _
  · exact kept other

theorem kept_act (kept : h.Kept) (a : Act) : (h.act a).Kept := by
  cases a with
  | subscribe topic capacity =>
    intro other
    rw [act, subscribe, Store.get?_insert]
    split
    · simp
    · exact kept other
  | unsubscribe topic id => exact kept.remove topic _
  | publish topic text =>
    obtain ⟨same, _⟩ | ⟨same, _⟩ := h.publish_eq topic text
    · exact kept.of_topics (by rw [act, same])
    · rw [act, same]
      exact (kept.of_topics (topics_put text _ h)).remove topic _
  | receive id => exact kept.of_topics (h.topics_receive id).1
  | leave id => exact kept.of_topics rfl

theorem kept_fold (kept : h.Kept) (acts : List Act) : (acts.foldl act h).Kept := by
  induction acts generalizing h with
  | nil => exact kept
  | cons a rest ih => exact ih (kept_act kept a)

def roll (h : Hub) : List Nat := h.topics.values.flatten

theorem mem_roll (id : Nat) : id ∈ h.roll ↔ ∃ topic, id ∈ h.sessions topic := by
  rw [roll, Store.values, List.mem_flatten]
  constructor
  · rintro ⟨ids, among, member⟩
    obtain ⟨entry, stored, rfl⟩ := List.mem_map.mp among
    exact ⟨entry.1, by rwa [sessions, Store.get?_of_mem stored]⟩
  · rintro ⟨topic, member⟩
    cases found : h.topics.get? topic with
    | none => simp [sessions, found] at member
    | some ids =>
      rw [sessions, found] at member
      exact ⟨ids, List.mem_map_of_mem (Store.mem_of_get? found), member⟩

theorem Sound.nodup_roll (sound : h.Sound) : h.roll.Nodup := by
  have own {entry : String × List Nat} (stored : entry ∈ h.topics.entries) :
      h.sessions entry.1 = entry.2 := by
    rw [sessions, Store.get?_of_mem stored, Option.getD_some]
  rw [roll, Store.values, List.nodup_flatten]
  constructor
  · intro ids among
    obtain ⟨entry, stored, rfl⟩ := List.mem_map.mp among
    exact own stored ▸ sound.distinct entry.1
  · -- A session listed under two topics would have two topics of its own.
    rw [List.pairwise_map]
    refine (List.pairwise_map.mp h.topics.distinct).imp_of_mem fun first second different => ?_
    intro id here there
    rw [← own first] at here
    rw [← own second] at there
    have both := (sound.listed _ id here).symm.trans (sound.listed _ id there)
    exact different (Option.some.inj both)

theorem sessions_stats (h : Hub) : h.stats.sessions = h.roll.length := by
  rw [roll, List.length_flatten, ← total_eq_sum]
  rfl

theorem Kept.mem_topics (kept : h.Kept) (topic : String) :
    topic ∈ h.topics.entries.map (·.1) ↔ ∃ id, id ∈ h.sessions topic := by
  rw [Store.mem_keys_iff, Option.isSome_iff_exists, sessions]
  cases found : h.topics.get? topic with
  | none => simp
  | some ids =>
    have some : ids ≠ [] := fun none => kept topic (none ▸ found)
    simpa using List.exists_mem_of_ne_nil ids some

end

section

variable (acts : List Act)

theorem sound_run : (run acts).Sound := sound_fold sound_empty acts

theorem nextId_run : (run acts).nextId = subscriptions acts :=
  (nextId_fold empty acts).trans (Nat.zero_add _)

/-- A hub lists the sessions that have not ended. -/
theorem mem_sessions_run (topic : String) (id : Nat) :
    id ∈ (run acts).sessions topic ↔ ∃ e ∈ registered acts, e.id = id ∧ e.topic = topic := by
  simp only [registered, List.mem_filter, decide_eq_true_eq]
  rw [mem_sessions (sound_run acts)]
  constructor
  · rintro ⟨s, found, subscribed, rfl⟩
    have known : id ∈ (enrolments 0 acts).map (·.id) := by
      rw [ids_enrolments, List.mem_range'_1, Nat.zero_add]
      exact ⟨Nat.zero_le id, nextId_run acts ▸ (sound_run acts).lt_nextId found⟩
    obtain ⟨e, member, rfl⟩ := List.mem_map.mp known
    obtain ⟨t, there, same, lasts⟩ := session?_of_mem_enrolments sound_empty member
    obtain rfl : s = t := Option.some.inj (found.symm.trans there)
    exact ⟨e, ⟨member, lasts.mp subscribed⟩, rfl, same.symm⟩
  · rintro ⟨e, ⟨member, lasts⟩, rfl, rfl⟩
    obtain ⟨s, found, same, subscribed⟩ := session?_of_mem_enrolments sound_empty member
    exact ⟨s, found, subscribed.mpr lasts, same⟩

theorem nodup_ids_enrolments (next : Nat) : ((enrolments next acts).map (·.id)).Nodup := by
  rw [ids_enrolments]
  exact List.nodup_range'

theorem stats_sessions_run : (run acts).stats.sessions = (registered acts).length := by
  have distinct : ((registered acts).map (·.id)).Nodup :=
    (nodup_ids_enrolments acts 0).sublist (List.filter_sublist.map _)
  have same : (run acts).roll.Perm ((registered acts).map (·.id)) := by
    rw [List.perm_ext_iff_of_nodup (sound_run acts).nodup_roll distinct]
    intro id
    simp [mem_roll, mem_sessions_run]
  rw [sessions_stats, same.length_eq, List.length_map]

theorem stats_topics_run :
    (run acts).stats.topics = ((registered acts).map (·.topic)).dedup.length := by
  have kept : (run acts).Kept := kept_fold kept_empty acts
  have same : ((run acts).topics.entries.map (·.1)).Perm
      ((registered acts).map (·.topic)).dedup := by
    rw [List.perm_ext_iff_of_nodup (run acts).topics.distinct (List.nodup_dedup _)]
    intro topic
    rw [kept.mem_topics, List.mem_dedup, List.mem_map]
    simp [mem_sessions_run]
  rw [← same.length_eq, List.length_map]
  rfl

end

/-- The books of a hub after any acts. As long as a counter of 64 bits does not start again, it makes
the same hub, and hands out every number once. No topic without sessions is stored. A session is
registered, and on its own topic only, until it is unsubscribed from it or a text published there
finds its owner gone. The statistics tell how many topics have a registered session, and how many
sessions are registered. -/
theorem books_exact (acts : List Act) :
    let h := run acts
    (subscriptions acts < twoTo 64 →
      acts.foldl actWrapped empty = h ∧ empty.issued acts = (enrolments 0 acts).map (·.id) ∧
        (empty.issued acts).Nodup) ∧
      (∀ topic, h.topics.get? topic ≠ some []) ∧
      (∀ topic id, id ∈ h.sessions topic ↔ ∃ e ∈ registered acts, e.id = id ∧ e.topic = topic) ∧
      h.stats.topics = ((registered acts).map (·.topic)).dedup.length ∧
      h.stats.sessions = (registered acts).length := by
  refine ⟨fun few => ?_, kept_fold kept_empty acts, mem_sessions_run acts, stats_topics_run acts,
    stats_sessions_run acts⟩
  have few : empty.nextId + subscriptions acts < twoTo 64 := (Nat.zero_add _).trans_lt few
  obtain ⟨same, numbers⟩ := foldl_actWrapped few
  have numbers : empty.issued acts = (enrolments 0 acts).map (·.id) :=
    numbers.trans (ids_enrolments 0 acts).symm
  exact ⟨same, numbers, numbers ▸ nodup_ids_enrolments acts 0⟩

/-- Two sessions on a topic, whose first owner goes, and one on another; then strange, stale and
repeated withdrawals. -/
def mixed : List Act :=
  [.subscribe "a" 1, .subscribe "a" 4, .subscribe "b" 0, .leave 0, .unsubscribe "b" 1,
    .unsubscribe "a" 9, .publish "b" "x", .publish "a" "y", .unsubscribe "a" 0, .receive 1,
    .unsubscribe "a" 1, .unsubscribe "a" 1, .subscribe "b" 1]

theorem books_exact_mixed :
    subscriptions mixed < twoTo 64 ∧ (empty.issued mixed).Nodup ∧
      (run mixed).topics.get? "a" ≠ some [] ∧ 2 ∈ (run mixed).sessions "b" ∧
      1 ∉ (run mixed).sessions "a" ∧ (run mixed).stats.topics = 1 ∧
      (run mixed).stats.sessions = 2 := by
  have few : subscriptions mixed < twoTo 64 := by decide
  obtain ⟨numbers, kept, sessions, topics, all⟩ := books_exact mixed
  have stays : ∃ e ∈ registered mixed, e.id = 2 ∧ e.topic = "b" := by decide
  have goes : ¬∃ e ∈ registered mixed, e.id = 1 ∧ e.topic = "a" := by decide
  exact ⟨few, (numbers few).2.2, kept "a", (sessions "b" 2).mpr stays,
    fun member => goes ((sessions "a" 1).mp member), topics.trans (by decide),
    all.trans (by decide)⟩

end NotificationRelay.Hub
