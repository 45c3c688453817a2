import NotificationRelay.Proofs.Server.Key
import NotificationRelay.Proofs.Server.Sockets

/-! Budgets of publishers. Within a minute a key gets as many requests through as the server grants,
however those with other keys lie between them. -/
namespace NotificationRelay

namespace Server

open Http

namespace Budget

variable {b? : Option Budget} {limit start number now : Nat}

def current (b? : Option Budget) (now : Nat) : Budget := b?.getD (.fresh now)

def use (limit : Nat) (b? : Option Budget) (now : Nat) : Option Budget :=
  some ((current b? now).spend limit now).1

/-- How a budget stands within the span from `start` on, after it has been used `number` times
there. What is left from earlier uses has no say. -/
def Stands (b? : Option Budget) (limit start : Nat) : (number : Nat) → Prop
  | 0 => ∀ b, b? = some b → (span : Int) < start - b.start
  | number + 1 => ∃ b, b? = some b ∧ (start : Int) ≤ b.start ∧ b.start ≤ start + span ∧
      b.used = min (number + 1) limit

theorem start_spend (b : Budget) (limit now : Nat) :
    (b.spend limit now).1.start = b.start ∨ (b.spend limit now).1.start = now := by
  have renewed : (b.renew now).start = b.start ∨ (b.renew now).start = now := by
    unfold renew
    split
    · exact .inr rfl
    · exact .inl rfl
  unfold spend
  dsimp only
  split <;> exact renewed

/-- Uses that are past leave a budget that is past. -/
theorem Stands.use_past (stands : Stands b? limit start 0) (past : now + span < start) :
    Stands (use limit b? now) limit start 0 := by
  intro b left
  cases left
  have kept : (current b? now).start + span < start := by
    cases b? with
    | none =>
      rw [current, Option.getD_none, fresh]
      dsimp only
      omega
    | some b =>
      have before := stands b rfl
      rw [current, Option.getD_some]
      omega
  rcases (current b? now).start_spend limit now with same | same <;> rw [same] <;> omega

/-- The budget that is used within the span started within it. -/
theorem Stands.renew (stands : Stands b? limit start number) (first : start ≤ now)
    (last : now ≤ start + span) :
    ∃ b, (current b? now).renew now = b ∧ (start : Int) ≤ b.start ∧ b.start ≤ start + span ∧
      b.used = min number limit := by
  cases number with
  | zero =>
    have renewed : (current b? now).renew now = .fresh now := by
      cases b? with
      | none =>
        rw [current, Option.getD_none, Budget.renew]
        split <;> rfl
      | some b =>
        have past := stands b rfl
        rw [current, Option.getD_some, Budget.renew, if_pos (by omega)]
    have low : (start : Int) ≤ now := by omega
    have high : (now : Int) ≤ start + span := by omega
    exact ⟨_, renewed, low, high, (Nat.zero_min limit).symm⟩
  | succ number =>
    obtain ⟨b, rfl, low, high, used⟩ := stands
    refine ⟨b, ?_, low, high, used⟩
    rw [current, Option.getD_some, Budget.renew, if_neg (by omega)]

/-- Within the span each use counts, and as many are granted as the limit allows. -/
theorem Stands.use (stands : Stands b? limit start number) (first : start ≤ now)
    (last : now ≤ start + span) :
    Stands (Budget.use limit b? now) limit start (number + 1) ∧
      (((current b? now).spend limit now).2 = true ↔ number < limit) := by
  obtain ⟨b, renewed, low, high, used⟩ := stands.renew first last
  rw [Budget.use, spend, renewed]
  split
  · rename_i full
    -- a use that is refused leaves no trace, so that `used` stays at the limit
    have same : b.used = min (number + 1) limit := by omega
    exact ⟨⟨b, rfl, low, high, same⟩, iff_of_false Bool.false_ne_true (by omega)⟩
  · rename_i room
    have more : b.used + 1 = min (number + 1) limit := by omega
    exact ⟨⟨_, rfl, low, high, more⟩, iff_of_true rfl (by omega)⟩

theorem stands_past (times : List Nat) (past : ∀ now ∈ times, now + span < start)
    (stands : Stands b? limit start 0) : Stands (times.foldl (use limit) b?) limit start 0 := by
  induction times generalizing b? with
  | nil => exact stands
  | cons now rest ih =>
    obtain ⟨first, past⟩ := List.forall_mem_cons.mp past
    exact ih past (stands.use_past first)

theorem stands_uses (times : List Nat) (inside : ∀ now ∈ times, start ≤ now ∧ now ≤ start + span)
    (stands : Stands b? limit start number) :
    Stands (times.foldl (use limit) b?) limit start (number + times.length) := by
  induction times generalizing b? number with
  | nil => exact stands
  | cons now rest ih =>
    obtain ⟨⟨first, last⟩, inside⟩ := List.forall_mem_cons.mp inside
    have later := ih inside (stands.use first last).1
    rwa [List.length_cons, Nat.add_comm rest.length, ← Nat.add_assoc]

end Budget

theorem Budgets.get?_spend (bs : Budgets) (limit now : Nat) (key other : String) :
    (bs.spend limit now key).1.get? other =
      if other = key then Budget.use limit (bs.get? key) now else bs.get? other :=
  bs.get?_insert key other _

/-- When a guarded request presents the key. -/
def Act.asks? (key : String) : Act → Option Nat
  | .request now r => if Guarded r ∧ Presents r key then some now else none
  | _ => none

def times (key : String) (acts : List Act) : List Nat := acts.filterMap (Act.asks? key)

theorem asks_success {a : Act} {key : String} {now : Nat} (asks : a.asks? key = some now) :
    ∃ r, a = .request now r ∧ Guarded r ∧ Presents r key := by
  cases a with
  | request time r =>
    rw [Act.asks?] at asks
    split at asks
    · rename_i both
      cases asks
      exact ⟨r, rfl, both⟩
    · cases asks
  | _ => cases asks

theorem times_cons (key : String) (a : Act) (acts : List Act) :
    times key (a :: acts) = (a.asks? key).toList ++ times key acts := by
  rw [times, List.filterMap_cons]
  cases a.asks? key <;> rfl

theorem times_append (key : String) (earlier acts : List Act) :
    times key (earlier ++ acts) = times key earlier ++ times key acts :=
  List.filterMap_append

/-- No request presents two keys. -/
theorem asks_inj {a : Act} {key other : String} {now time : Nat} (one : a.asks? key = some now)
    (two : a.asks? other = some time) : key = other := by
  obtain ⟨r, rfl, _, presents⟩ := asks_success one
  obtain ⟨_, same, _, others⟩ := asks_success two
  cases same
  have same := (keyOf_eq_some_iff.mpr presents).symm.trans (keyOf_eq_some_iff.mpr others)
  exact Option.some.inj same

inductive Use (s : Server) (a : Act) : Budgets → Prop
  | spared (foreign : ∀ key ∈ s.settings.keys, a.asks? key = none) : Use s a s.budgets
  | spent {now : Nat} {key : String} (known : key ∈ s.settings.keys)
      (asks : a.asks? key = some now) :
      Use s a (s.budgets.spend s.settings.requestsPerMinute.toNat now key).1

theorem use_answer (s : Server) (now : Nat) (r : Request) :
    (s.answer now r).1.settings = s.settings ∧
      Use s (.request now r) (s.answer now r).1.budgets := by
  have books := s.sameBooks_answer now r
  rw [books.settings, books.budgets]
  by_cases guarded : Guarded r
  · rw [if_pos guarded]
    by_cases known : ∃ key ∈ s.settings.keys, Presents r key
    · obtain ⟨key, known, presents⟩ := known
      rw [s.authorize_known now known presents]
      exact ⟨rfl, .spent known (if_pos ⟨guarded, presents⟩)⟩
    · have unknown : ∀ key ∈ s.settings.keys, ¬Presents r key := by simpa using known
      obtain ⟨reason, refused⟩ := s.authorize_unknown now unknown
      rw [refused]
      exact ⟨rfl, .spared fun key known => if_neg fun both => unknown key known both.2⟩
  · rw [if_neg guarded]
    exact ⟨rfl, .spared fun key _ => if_neg fun both => guarded both.1⟩

namespace Attendance

theorem use_step (s : Attendance) (a : Act) :
    (s.step a).server.settings = s.server.settings ∧ Use s.server a (s.step a).server.budgets := by
  cases a with
  | request now r => exact s.server.use_answer now r
  | forward id => exact ⟨rfl, .spared fun _ _ => rfl⟩
  | read id =>
    have books := s.server.sameBooks_readSocket id
    rw [step, books.settings, books.budgets]
    exact ⟨rfl, .spared fun _ _ => rfl⟩
  | close id =>
    have books := s.server.sameBooks_closeSocket id
    rw [step, books.settings, books.budgets]
    exact ⟨rfl, .spared fun _ _ => rfl⟩
  | sweep now => exact ⟨rfl, .spared fun _ _ => rfl⟩

theorem settings_fold (acts : List Act) (s : Attendance) :
    (acts.foldl step s).server.settings = s.server.settings := by
  induction acts generalizing s with
  | nil => rfl
  | cons a rest ih => exact (ih (s.step a)).trans (s.use_step a).1

/-- The budget of a key of the server depends on nothing but when the key was used. -/
theorem get?_step (s : Attendance) (a : Act) {key : String} (known : key ∈ s.server.settings.keys) :
    (s.step a).server.budgets.get? key =
      (a.asks? key).toList.foldl (Budget.use s.server.settings.requestsPerMinute.toNat)
        (s.server.budgets.get? key) := by
  obtain ⟨_, use⟩ := s.use_step a
  generalize (s.step a).server.budgets = after at use
  cases use with
  | spared foreign =>
    rw [foreign key known]
    rfl
  | @spent now other _ asks =>
    rw [Budgets.get?_spend]
    split
    · rename_i same
      rw [same, asks]
      rfl
    · rename_i foreign
      -- another key was presented, and a request presents one only
      have none : a.asks? key = none := by
        by_contra both
        obtain ⟨time, both⟩ := Option.ne_none_iff_exists'.mp both
        exact foreign (asks_inj both asks)
      rw [none]
      rfl

theorem get?_fold (acts : List Act) (s : Attendance) {key : String}
    (known : key ∈ s.server.settings.keys) :
    (acts.foldl step s).server.budgets.get? key =
      (times key acts).foldl (Budget.use s.server.settings.requestsPerMinute.toNat)
        (s.server.budgets.get? key) := by
  induction acts generalizing s with
  | nil => rfl
  | cons a rest ih =>
    obtain ⟨same, _⟩ := s.use_step a
    rw [List.foldl_cons, ih (s.step a) (same ▸ known), same, s.get?_step a known,
      ← List.foldl_append, times_cons]

def InBounds (s : Server) : Prop :=
  ∀ key b, s.budgets.get? key = some b →
    key ∈ s.settings.keys ∧ b.used ≤ s.settings.requestsPerMinute.toNat

theorem inBounds_step {s : Attendance} (bounds : InBounds s.server) (a : Act) :
    InBounds (s.step a).server := by
  intro key b found
  obtain ⟨same, use⟩ := s.use_step a
  rw [same]
  generalize (s.step a).server.budgets = after at use found
  cases use with
  | spared _ => exact bounds key b found
  | @spent now other known _ =>
    rw [Budgets.get?_spend] at found
    split at found
    · rename_i same
      cases found
      refine ⟨same ▸ known, Budget.used_spend_le _ now _ ?_⟩
      cases before : s.server.budgets.get? other with
      | none => exact Nat.zero_le _
      | some b => exact (bounds other b before).2
    · exact bounds key b found

theorem inBounds_fold (acts : List Act) {s : Attendance} (bounds : InBounds s.server) :
    InBounds (acts.foldl step s).server := by
  induction acts generalizing s with
  | nil => exact bounds
  | cons a rest ih => exact ih (inBounds_step bounds a)

end Attendance

theorem make_success {settings : ServerSettings} {observed : Bool} {server : Server}
    (made : Server.make settings observed = .ok server) :
    server.settings = settings ∧ server.budgets = .empty := by
  unfold Server.make at made
  split at made
  · cases made
  · cases made
    exact ⟨rfl, rfl⟩

/-- The budget of a key counts the uses within the minute. -/
theorem stands_run {settings : ServerSettings} {observed : Bool} {server : Server}
    (made : Server.make settings observed = .ok server) {earlier acts : List Act} {key : String}
    {start : Nat} (known : key ∈ settings.keys)
    (past : ∀ time ∈ times key earlier, time + Budget.span < start)
    (inside : ∀ time ∈ times key acts, start ≤ time ∧ time ≤ start + Budget.span) :
    Budget.Stands ((Attendance.run server (earlier ++ acts)).server.budgets.get? key)
      settings.requestsPerMinute.toNat start (times key acts).length := by
  obtain ⟨kept, fresh⟩ := make_success made
  have unused : server.budgets.get? key = none := by
    rw [fresh]
    rfl
  rw [Attendance.run, Attendance.get?_fold _ _ (show key ∈ server.settings.keys from kept ▸ known),
    times_append, List.foldl_append, unused, kept]
  -- the earlier uses leave what counts as no use from `start` on, and the others count from there
  have none_yet : Budget.Stands none settings.requestsPerMinute.toNat start 0 := by
    intro b found
    cases found
  have before := Budget.stands_past (times key earlier) past none_yet
  have after := Budget.stands_uses (times key acts) inside before
  rwa [Nat.zero_add] at after

/-- A request that uses the budget within its span is judged by the number of uses. -/
theorem answer_of_stands {s : Server} {now : Nat} {r : Request} {key : String} {start number : Nat}
    (guarded : Guarded r) (presents : Presents r key) (known : key ∈ s.settings.keys)
    (budget : Budget.Stands (s.budgets.get? key) s.settings.requestsPerMinute.toNat start number)
    (first : start ≤ now) (last : now ≤ start + Budget.span) :
    let limit := s.settings.requestsPerMinute.toNat
    ((s.authorize now r).2 = .ok () ↔ number + 1 ≤ limit) ∧
      ∃ s' reply, s.answer now r = (s', .reply reply) ∧
        (reply.status = 429 ↔ limit < number + 1) ∧ reply.status ≠ 401 := by
  intro limit
  have granted : (s.spend now key).2 = true ↔ number < limit := (budget.use first last).2
  have judged := s.authorize_known now known presents
  by_cases room : number < limit
  · rw [if_pos (granted.mpr room)] at judged
    obtain ⟨s', reply, answered, status⟩ := answer_of_passed guarded judged
    have other : reply.status ≠ 429 ∧ reply.status ≠ 401 := by
      constructor <;> rintro same <;> simp [same, passing] at status
    refine ⟨iff_of_true (by rw [judged]) room, s', reply, answered, ?_, other.2⟩
    exact iff_of_false other.1 (by omega)
  · rw [if_neg (mt granted.mp room)] at judged
    obtain ⟨reply, answered, status⟩ := answer_of_fault guarded judged
    have kept : (s.authorize now r).2 ≠ .ok () := by
      rw [judged]
      rintro ⟨⟩
    refine ⟨iff_of_false kept room, _, reply, answered, ?_, ?_⟩
    · exact iff_of_true status (by omega)
    · rw [status]
      decide

/-- Whatever has befallen a server that was started with the settings: a request for a route that
asks for a key and presents none of the server is answered with 401 and leaves the server as it is;
of those that present a key of the server within a minute, at whose start its earlier uses are more
than a minute past, the first ones pass, as many as the settings grant, and the others are answered
with 429. A request that asks with `OPTIONS` what may be asked is answered before its key is looked
at, and is not among them. Only keys of the server have budgets, and no more is used of them than is
granted. -/
theorem budget_exact {settings : ServerSettings} {observed : Bool} {server : Server}
    (made : Server.make settings observed = .ok server) (earlier acts : List Act) :
    let s := (Attendance.run server (earlier ++ acts)).server
    let limit := settings.requestsPerMinute.toNat
    (∀ now r, Guarded r → (∀ key ∈ settings.keys, ¬Presents r key) →
      ∃ reply, s.answer now r = (s, .reply reply) ∧ reply.status = 401) ∧
    (∀ key ∈ settings.keys, ∀ start now r, Guarded r → Presents r key →
      (∀ time ∈ times key earlier, time + Budget.span < start) →
      (∀ time ∈ times key acts, start ≤ time ∧ time ≤ start + Budget.span) →
      start ≤ now → now ≤ start + Budget.span →
      let number := (times key acts).length + 1
      ((s.authorize now r).2 = .ok () ↔ number ≤ limit) ∧
        ∃ s' reply, s.answer now r = (s', .reply reply) ∧
          (reply.status = 429 ↔ limit < number) ∧ reply.status ≠ 401) ∧
    ∀ key b, s.budgets.get? key = some b →
      key ∈ settings.keys ∧ b.used ≤ limit ∧ b.used < 2 ^ 32 := by
  intro s limit
  obtain ⟨kept, fresh⟩ := make_success made
  have settings_eq : s.settings = settings := (Attendance.settings_fold _ _).trans kept
  refine ⟨fun now r guarded unknown => ?_, fun key known start now r guarded presents past inside
    first last => ?_, fun key b found => ?_⟩
  · obtain ⟨reason, refused⟩ := s.authorize_unknown now (settings_eq ▸ unknown)
    exact answer_of_fault guarded refused
  · have budget := stands_run made known past inside
    rw [← settings_eq] at budget known
    have judged := answer_of_stands guarded presents known budget first last
    rwa [settings_eq] at judged
  · have bounds : Attendance.InBounds s := Attendance.inBounds_fold _ (fun key b found => by
      rw [fresh] at found
      cases found)
    obtain ⟨known, used⟩ := bounds key b found
    rw [settings_eq] at known used
    have small := settings.requestsPerMinute.toNat_lt
    exact ⟨known, used, Nat.lt_of_le_of_lt used small⟩

def sparing : ServerSettings := { ServerSettings.default with keys := ["k"], requestsPerMinute := 1 }

def asking (headers : List (String × String)) : Request where
  method := "POST"
  target := "/api/v1/publish"
  headers := headers
  body := []
  upgradable := false

theorem guarded_asking (headers : List (String × String)) : Guarded (asking headers) := by
  have path : (asking headers).path = "/api/v1/publish" := by cbv
  exact ⟨by simp [asking], .publish, Route.ofPath_eq_publish.mpr path, rfl⟩

theorem budget_exact_sparing :
    ∃ server, Server.make sparing false = .ok server ∧
      let s := (Attendance.run server [.request 0 (asking [("x-api-key", "k")])]).server
      (∃ s' reply, s.answer Budget.span (asking [("authorization", "Bearer k")]) =
          (s', .reply reply) ∧ reply.status = 429) ∧
        ∃ reply, s.answer 7 (asking []) = (s, .reply reply) ∧ reply.status = 401 := by
  refine ⟨_, rfl, ?_⟩
  have first : Presents (asking [("x-api-key", "k")]) "k" :=
    keyOf_eq_some_iff.mp (by decide +kernel)
  have second : Presents (asking [("authorization", "Bearer k")]) "k" :=
    keyOf_eq_some_iff.mp (by decide +kernel)
  have none (key : String) : ¬Presents (asking []) key := by
    rintro ⟨_, given | ⟨_, given⟩, _⟩ <;> cases given
  have used : times "k" [.request 0 (asking [("x-api-key", "k")])] = [0] := by
    rw [times_cons, Act.asks?, if_pos ⟨guarded_asking _, first⟩]
    rfl
  obtain ⟨unknown, known, _⟩ := budget_exact
    (show Server.make sparing false = .ok _ from rfl) [] [.request 0 (asking [("x-api-key", "k")])]
  obtain ⟨_, s', reply, answered, told, _⟩ := known "k" List.mem_cons_self 0 Budget.span _
    (guarded_asking _) second nofun (by simp [used]) (by decide) (by decide)
  refine ⟨⟨s', reply, answered, told.mpr ?_⟩, ?_⟩
  · rw [used]
    decide
  · exact unknown 7 _ (guarded_asking _) fun key _ => none key

end Server

end NotificationRelay
