import Mathlib.Data.List.Find
import NotificationRelay.Proofs.Admission.Course

/-! Users side by side. All users share one map of counts and one map of queues, and a sweep goes
through all the queues; still each user gets what that user would get alone. Two registers are
compared by all that one user can see of them: what the user does is seen alike in both, and what
another user does in one of them is not seen at all. -/
namespace NotificationRelay

/-- The user whose connections the quota is for. -/
def Quota.owner : Quota → String
  | .user name => name
  | .project name _ => name
  | .job name _ => name

theorem Connection.owner_of_mem_quotas {c : Connection} {q : Quota} (member : q ∈ c.quotas) :
    q.owner = c.user := by
  simp only [quotas, List.cons_append, List.mem_cons, List.mem_append, Option.mem_toList,
    Option.map_eq_some_iff] at member
  rcases member with rfl | ⟨project, _, rfl⟩ | ⟨job, _, rfl⟩ <;> rfl

namespace Register

structure SameFor (user : String) (r other : Register) : Prop where
  limits : r.limits = other.limits
  counts : ∀ q, q.owner = user → r.opened.count q = other.opened.count q
  attempts : r.attemptsOf user = other.attemptsOf user

theorem connect_eq (r : Register) (now : Nat) (c : Connection) :
    r.connect now c =
      if r.limits.greatest .rate ≤ (r.recent now c.user).length then
        ({ r with attempts := r.attempts.insert c.user (r.recent now c.user) },
          .error ⟨c.user, .rate, (r.recent now c.user).length, r.limits.greatest .rate⟩)
      else
        match r.refusal? c with
        | some refusal => (r.noted now c.user, .error refusal)
        | none => ((r.noted now c.user).enter c, .ok ()) := rfl

namespace SameFor

variable {user : String} {r other : Register}

theorem refl (user : String) (r : Register) : r.SameFor user r := ⟨rfl, fun _ _ => rfl, rfl⟩

theorem trans {third : Register} (first : r.SameFor user other)
    (second : other.SameFor user third) : r.SameFor user third where
  limits := first.limits.trans second.limits
  counts q own := (first.counts q own).trans (second.counts q own)
  attempts := first.attempts.trans second.attempts

theorem recent (same : r.SameFor user other) (now : Nat) :
    r.recent now user = other.recent now user := by
  rw [Register.recent, Register.recent, same.limits, same.attempts]

/-! What the user does is done in both registers. -/

theorem refusal? (same : r.SameFor user other) {c : Connection} (own : c.user = user) :
    r.refusal? c = other.refusal? c := by
  have counts (q : Quota) (member : q ∈ c.quotas) : r.opened.count q = other.opened.count q :=
    same.counts q ((Connection.owner_of_mem_quotas member).trans own)
  have first : (c.quotas.find? fun q => r.limits.greatest q.limit ≤ r.opened.count q) =
      c.quotas.find? fun q => other.limits.greatest q.limit ≤ other.opened.count q :=
    List.find?_congr fun q member => by rw [same.limits, counts q member]
  unfold Register.refusal?
  rw [first]
  refine Option.map_congr fun q found => ?_
  rw [same.limits, counts q (List.mem_of_find?_eq_some found)]

theorem insert (same : r.SameFor user other) (name : String) (times : List Nat) :
    SameFor user { r with attempts := r.attempts.insert name times }
      { other with attempts := other.attempts.insert name times } where
  limits := same.limits
  counts := same.counts
  attempts := by rw [attemptsOf_insert, attemptsOf_insert, same.attempts]

theorem enter (same : r.SameFor user other) (c : Connection) :
    (r.enter c).SameFor user (other.enter c) where
  limits := same.limits
  counts q own := by rw [count_enter, count_enter, same.counts q own]
  attempts := same.attempts

theorem connect (same : r.SameFor user other) (now : Nat) {c : Connection} (own : c.user = user) :
    (r.connect now c).2 = (other.connect now c).2 ∧
      (r.connect now c).1.SameFor user (other.connect now c).1 := by
  have recent : r.recent now c.user = other.recent now c.user := own ▸ same.recent now
  have noted : (r.noted now c.user).SameFor user (other.noted now c.user) := by
    rw [Register.noted, Register.noted, recent]
    exact same.insert c.user _
  rw [connect_eq, connect_eq, same.refusal? own, recent]
  simp only [same.limits]
  split
  · refine ⟨rfl, ?_⟩
    have pruned := same.insert c.user (other.recent now c.user)
    rw [same.limits] at pruned
    exact pruned
  · split
    · exact ⟨rfl, noted⟩
    · exact ⟨rfl, noted.enter c⟩

theorem release (same : r.SameFor user other) (c : Connection) :
    (r.release c).1.SameFor user (other.release c).1 where
  limits := same.limits
  counts q own := by rw [count_release, count_release, same.counts q own]
  attempts := same.attempts

theorem sweep (same : r.SameFor user other) (now : Nat) :
    (r.sweep now).1.SameFor user (other.sweep now).1 where
  limits := same.limits
  counts := same.counts
  attempts := by rw [attemptsOf_sweep, attemptsOf_sweep, same.recent now]

end SameFor

/-! What another user does is done in one register alone. -/

variable {user : String} {c : Connection}

theorem foreign_quotas (foreign : c.user ≠ user) {q : Quota} (own : q.owner = user) :
    c.quotas.count q = 0 := by
  refine List.count_eq_zero_of_not_mem fun member => ?_
  exact foreign ((Connection.owner_of_mem_quotas member).symm.trans own)

theorem foreign_insert (r : Register) (foreign : c.user ≠ user) (times : List Nat) :
    SameFor user { r with attempts := r.attempts.insert c.user times } r where
  limits := rfl
  counts _ _ := rfl
  attempts := by rw [attemptsOf_insert, if_neg (Ne.symm foreign)]

theorem foreign_enter (r : Register) (foreign : c.user ≠ user) : (r.enter c).SameFor user r where
  limits := rfl
  counts q own := by rw [count_enter, foreign_quotas foreign own, Nat.add_zero]
  attempts := rfl

theorem foreign_connect (r : Register) (now : Nat) (foreign : c.user ≠ user) :
    (r.connect now c).1.SameFor user r := by
  have noted : (r.noted now c.user).SameFor user r := r.foreign_insert foreign _
  obtain ⟨_, result⟩ | ⟨_, _, _, result⟩ | ⟨_, _, result⟩ := r.connect_cases now c
  · rw [result]
    exact r.foreign_insert foreign _
  · rw [result]
    exact noted
  · rw [result]
    exact (foreign_enter _ foreign).trans noted

theorem foreign_release (r : Register) (foreign : c.user ≠ user) :
    (r.release c).1.SameFor user r where
  limits := rfl
  counts q own := by rw [count_release, foreign_quotas foreign own, Nat.sub_zero]
  attempts := rfl

end Register

namespace Admission

/-- Attempts and releases concern one user; time and sweeps concern all. -/
def Act.concerns (user : String) : Act → Bool
  | .connect c => c.user = user
  | .release c => c.user = user
  | .sweep => true
  | .wait _ => true

namespace Course

def attemptsBy (s : Course) (user : String) : List Attempt :=
  s.attempts.filter fun a => a.connection.user = user

theorem attemptsBy_connect (s : Course) (c : Connection) (user : String) :
    (s.step (.connect c)).attemptsBy user = s.attemptsBy user ++
      if c.user = user then [⟨s.clock, c, (s.register.connect s.clock c).2⟩] else [] := by
  simp only [attemptsBy, step, List.filter_append, List.filter_cons, List.filter_nil,
    decide_eq_true_eq]

structure SameFor (user : String) (s alone : Course) : Prop where
  clock : s.clock = alone.clock
  register : s.register.SameFor user alone.register
  attempts : s.attemptsBy user = alone.attempts

namespace SameFor

variable {user : String} {s alone : Course} {act : Act}

theorem step (same : s.SameFor user alone) (concerned : act.concerns user) :
    (s.step act).SameFor user (alone.step act) := by
  obtain ⟨clock, register, attempts⟩ := same
  cases act with
  | connect c =>
    have own : c.user = user := of_decide_eq_true concerned
    obtain ⟨result, after⟩ := register.connect s.clock own
    refine ⟨clock, ?_, ?_⟩
    · simp only [Course.step, ← clock]
      exact after
    · rw [attemptsBy_connect, if_pos own, attempts, result, clock]
      rfl
  | release c => exact ⟨clock, register.release c, attempts⟩
  | sweep =>
    refine ⟨clock, ?_, attempts⟩
    simp only [Course.step, ← clock]
    exact register.sweep s.clock
  | wait nanos => exact ⟨congrArg (· + nanos) clock, register, attempts⟩

/-- What concerns only other users is done in the one course, and the other need not know. -/
theorem skip (same : s.SameFor user alone) (foreign : act.concerns user = false) :
    (s.step act).SameFor user alone := by
  obtain ⟨clock, register, attempts⟩ := same
  cases act with
  | connect c =>
    have other : c.user ≠ user := of_decide_eq_false foreign
    refine ⟨clock, (s.register.foreign_connect s.clock other).trans register, ?_⟩
    rw [attemptsBy_connect, if_neg other, List.append_nil]
    exact attempts
  | release c =>
    have other : c.user ≠ user := of_decide_eq_false foreign
    exact ⟨clock, (s.register.foreign_release other).trans register, attempts⟩
  | sweep => cases foreign
  | wait nanos => cases foreign

theorem fold (same : s.SameFor user alone) (acts : List Act) :
    (acts.foldl Course.step s).SameFor user
      ((acts.filter (·.concerns user)).foldl Course.step alone) := by
  induction acts generalizing s alone with
  | nil => exact same
  | cons act rest ih =>
    cases concerned : act.concerns user with
    | true =>
      rw [List.filter_cons_of_pos concerned]
      exact ih (same.step concerned)
    | false =>
      rw [List.filter_cons_of_neg (Bool.eq_false_iff.mp concerned)]
      exact ih (same.skip concerned)

end SameFor

/-- Whatever the others do and however they name their projects and jobs, a user's attempts have the
outcomes, and the user's open connections have the numbers, that they have in the same course
without the others. -/
theorem users_isolated (limits : Limits) (clock : Nat) (acts : List Act) (user : String) :
    let whole := run limits clock acts
    let alone := run limits clock (acts.filter (·.concerns user))
    whole.attemptsBy user = alone.attempts ∧
      whole.register.opened.count (.user user) = alone.register.opened.count (.user user) ∧
      (∀ project, whole.register.opened.count (.project user project) =
        alone.register.opened.count (.project user project)) ∧
      ∀ job, whole.register.opened.count (.job user job) =
        alone.register.opened.count (.job user job) := by
  intro whole alone
  have initial : (start limits clock).SameFor user (start limits clock) := ⟨rfl, .refl _ _, rfl⟩
  obtain ⟨_, register, attempts⟩ : whole.SameFor user alone := initial.fold acts
  exact ⟨attempts, register.counts (.user user) rfl,
    fun project => register.counts (.project user project) rfl,
    fun job => register.counts (.job user job) rfl⟩

end Course

end Admission

end NotificationRelay
