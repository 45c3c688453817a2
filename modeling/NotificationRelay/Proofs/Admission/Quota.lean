import Mathlib.Data.List.Nodup
import NotificationRelay.Proofs.Admission.Course

/-! Quotas along the course of a register: no stored number leaves the range of its limit. All
limits are 32-bit words, and so are the numbers compared with them; a register that counts in such
words therefore behaves as one that counts without bounds. -/
namespace NotificationRelay

theorem Limits.greatest_lt (l : Limits) (limit : Limit) : l.greatest limit < twoTo 32 := by
  cases limit <;> exact UInt32.toNat_lt _

namespace Register

theorem prune_length_le (window now : Nat) (times : List Nat) :
    (prune window now times).length ≤ times.length :=
  (List.dropWhile_suffix _).length_le

structure Bounded (r : Register) : Prop where
  positive : Tally.Positive r.opened
  within : ∀ q, r.opened.count q ≤ r.limits.greatest q.limit
  recent : ∀ user, (r.attemptsOf user).length ≤ r.limits.greatest .rate

theorem bounded_make (limits : Limits) : (make limits).Bounded where
  positive := Tally.positive_empty
  within _ := Nat.zero_le _
  recent _ := Nat.zero_le _

namespace Bounded

variable {r : Register}

theorem recent_length_le (bounded : r.Bounded) (now : Nat) (user : String) :
    (r.recent now user).length ≤ r.limits.greatest .rate :=
  Nat.le_trans (prune_length_le _ now _) (bounded.recent user)

theorem noted (bounded : r.Bounded) (now : Nat) (user : String)
    (room : (r.recent now user).length < r.limits.greatest .rate) : (r.noted now user).Bounded where
  positive := bounded.positive
  within := bounded.within
  recent other := by
    rw [attemptsOf_noted]
    split
    · rw [List.length_append]
      exact room
    · exact bounded.recent other

theorem enter (bounded : r.Bounded) (c : Connection) (free : r.refusal? c = none) :
    (r.enter c).Bounded where
  positive := bounded.positive.addAll c.quotas
  within q := by
    have once := List.nodup_iff_count_le_one.mp c.quotas_nodup q
    have before := bounded.within q
    rw [count_enter]
    change _ ≤ r.limits.greatest q.limit
    by_cases member : q ∈ c.quotas
    · have room := refusal?_none free member
      omega
    · rw [List.count_eq_zero_of_not_mem member]
      omega
  recent := bounded.recent

theorem connect (bounded : r.Bounded) (now : Nat) (c : Connection) :
    (r.connect now c).1.Bounded := by
  obtain ⟨_, same⟩ | ⟨room, _, _, same⟩ | ⟨room, free, same⟩ := r.connect_cases now c
  · rw [same]
    refine ⟨bounded.positive, bounded.within, fun other => ?_⟩
    rw [attemptsOf_insert]
    split
    · exact bounded.recent_length_le now c.user
    · exact bounded.recent other
  · rw [same]
    exact bounded.noted now c.user room
  · rw [same]
    exact (bounded.noted now c.user room).enter c free

theorem release (bounded : r.Bounded) (c : Connection) : (r.release c).1.Bounded where
  positive := bounded.positive.dropAll c.quotas
  within q := by
    rw [count_release]
    exact Nat.le_trans (Nat.sub_le _ _) (bounded.within q)
  recent := bounded.recent

theorem sweep (bounded : r.Bounded) (now : Nat) : (r.sweep now).1.Bounded where
  positive := bounded.positive
  within := bounded.within
  recent user := by
    rw [attemptsOf_sweep]
    exact bounded.recent_length_le now user

theorem stored (bounded : r.Bounded) {q : Quota} {n : Nat} (found : r.opened.get? q = some n) :
    1 ≤ n ∧ n ≤ r.limits.greatest q.limit :=
  ⟨bounded.positive q n found, Tally.count_of_get? found ▸ bounded.within q⟩

end Bounded

/-! The same operations on 32-bit words, where every sum, difference and length wraps. -/

def word (n : Nat) : Nat := n % twoTo 32

theorem word_of_lt {n : Nat} (small : n < twoTo 32) : word n = n := Nat.mod_eq_of_lt small

namespace Wrapped

def add (t : Tally Quota) (q : Quota) : Tally Quota := t.insert q (word (t.count q + 1))

/-- Adding the greatest word takes one away. -/
def drop (t : Tally Quota) (q : Quota) : Tally Quota :=
  t.alter q fun n => n.bind fun n => if n ≤ 1 then none else some (word (n + greatest 32))

def connect (r : Register) (now : Nat) (c : Connection) : Register × Except Refusal Unit :=
  let current := word (r.recent now c.user).length
  if r.limits.greatest .rate ≤ current then
    ({ r with attempts := r.attempts.insert c.user (r.recent now c.user) },
      .error ⟨c.user, .rate, current, r.limits.greatest .rate⟩)
  else
    match r.refusal? c with
    | some refusal => (r.noted now c.user, .error refusal)
    | none => ({ r.noted now c.user with opened := c.quotas.foldl add r.opened }, .ok ())

def release (r : Register) (c : Connection) : Register × Bool :=
  ({ r with opened := c.quotas.foldl drop r.opened }, (r.opened.get? (.user c.user)).isSome)

theorem addAll_eq (keys : List Quota) (distinct : keys.Nodup) (t : Tally Quota)
    (room : ∀ q ∈ keys, t.count q + 1 < twoTo 32) :
    keys.foldl add t = keys.foldl (fun t q => t.add q 1) t := by
  induction keys generalizing t with
  | nil => rfl
  | cons q rest ih =>
    have once : add t q = t.add q 1 := by
      rw [add, word_of_lt (room q List.mem_cons_self)]
      rfl
    rw [List.foldl_cons, List.foldl_cons, once]
    obtain ⟨absent, distinct⟩ := List.nodup_cons.mp distinct
    refine ih distinct _ fun other member => ?_
    have different : other ≠ q := fun same => absent (same ▸ member)
    rw [Tally.count_add, if_neg different]
    exact room other (List.mem_cons_of_mem q member)

theorem drop_eq (t : Tally Quota) (q : Quota) (small : t.count q < twoTo 32) :
    drop t q = t.drop q := by
  unfold drop Tally.drop
  unfold Store.alter
  cases found : t.get? q with
  | none => rfl
  | some n =>
    rw [Tally.count_of_get? found] at small
    have back (several : ¬n ≤ 1) : word (n + greatest 32) = n - 1 := by
      have width : greatest 32 + 1 = twoTo 32 := rfl
      have shifted : n + greatest 32 = (n - 1) + twoTo 32 := by omega
      rw [shifted, word, Nat.add_mod_right]
      exact Nat.mod_eq_of_lt (by omega)
    simp only [Option.bind_some]
    by_cases single : n ≤ 1
    · simp only [single, if_true]
    · simp only [single, if_false, back single]

theorem dropAll_eq (keys : List Quota) (t : Tally Quota) (small : ∀ q, t.count q < twoTo 32) :
    keys.foldl drop t = keys.foldl Tally.drop t := by
  induction keys generalizing t with
  | nil => rw [List.foldl_nil, List.foldl_nil]
  | cons q rest ih =>
    rw [List.foldl_cons, List.foldl_cons, drop_eq t q (small q)]
    refine ih _ fun other => ?_
    rw [Tally.count_drop]
    split
    · exact Nat.lt_of_le_of_lt (Nat.sub_le _ _) (small q)
    · exact small other

variable {r : Register}

theorem connect_eq (bounded : r.Bounded) (now : Nat) (c : Connection) :
    connect r now c = r.connect now c := by
  have short : word (r.recent now c.user).length = (r.recent now c.user).length :=
    word_of_lt (Nat.lt_of_le_of_lt (bounded.recent_length_le now c.user) (r.limits.greatest_lt .rate))
  have entered (free : r.refusal? c = none) :
      c.quotas.foldl add r.opened = (r.enter c).opened := by
    refine addAll_eq c.quotas c.quotas_nodup r.opened fun q member => ?_
    have room := refusal?_none free member
    have limit := r.limits.greatest_lt q.limit
    omega
  unfold connect
  rw [short]
  obtain ⟨full, same⟩ | ⟨room, refusal, found, same⟩ | ⟨room, free, same⟩ := r.connect_cases now c
  · rw [same, if_pos full]
  · rw [same, if_neg (Nat.not_le_of_lt room), found]
  · rw [same, if_neg (Nat.not_le_of_lt room), free]
    simp only [entered free]
    rfl

theorem release_eq (bounded : r.Bounded) (c : Connection) : release r c = r.release c := by
  have small (q : Quota) : r.opened.count q < twoTo 32 :=
    Nat.lt_of_le_of_lt (bounded.within q) (r.limits.greatest_lt q.limit)
  unfold release Register.release
  rw [dropAll_eq c.quotas r.opened small]

end Wrapped

end Register

namespace Admission.Course

theorem bounded_step (s : Course) (act : Act) (bounded : s.register.Bounded) :
    (s.step act).register.Bounded := by
  cases act with
  | connect c => exact bounded.connect s.clock c
  | release c => exact bounded.release c
  | sweep => exact bounded.sweep s.clock
  | wait nanos => exact bounded

theorem bounded_run (limits : Limits) (clock : Nat) (acts : List Act) :
    (run limits clock acts).register.Bounded :=
  run_induction limits clock acts (Register.bounded_make limits) bounded_step

/-- Whatever is attempted, released and swept, each stored number of connections is at least one
and at most its limit, no user has more noted attempts than the rate allows, and an operation on
words does what the same operation does on numbers. -/
theorem quotas_kept (limits : Limits) (clock : Nat) (acts : List Act) :
    let r := (run limits clock acts).register
    (∀ q n, r.opened.get? q = some n → 1 ≤ n ∧ n ≤ limits.greatest q.limit) ∧
      (∀ user times, r.attempts.get? user = some times → times.length ≤ limits.greatest .rate) ∧
      (∀ now c, Register.Wrapped.connect r now c = r.connect now c) ∧
      ∀ c, Register.Wrapped.release r c = r.release c := by
  intro r
  have bounded : r.Bounded := bounded_run limits clock acts
  have same : r.limits = limits := limits_run limits clock acts
  refine ⟨fun q n found => ?_, fun user times found => ?_, fun now c => ?_, fun c => ?_⟩
  · rw [← same]
    exact bounded.stored found
  · have most := bounded.recent user
    rw [Register.attemptsOf, found, same] at most
    exact most
  · exact Register.Wrapped.connect_eq bounded now c
  · exact Register.Wrapped.release_eq bounded c

end Admission.Course

end NotificationRelay
