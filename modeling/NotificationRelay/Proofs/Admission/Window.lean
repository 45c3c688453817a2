import Mathlib.Data.List.Basic
import Mathlib.Data.List.TakeWhile
import NotificationRelay.Proofs.Admission.Course

/-! The rate window against the whole history. A register keeps times in a queue that it prunes
from the front, and only when it looks at it; along a course this queue is the end of all noted
times of the user, and what is missing of them has left the window. -/
namespace NotificationRelay

namespace Register

/-- Pruning from the front drops all that has left the window, since the times are in order. -/
theorem prune_eq_filter {times : List Nat} (ordered : times.Pairwise (· ≤ ·)) (window now : Nat) :
    prune window now times = times.filter fun time => now - time ≤ window := by
  induction times with
  | nil => rfl
  | cons time rest ih =>
    obtain ⟨before, ordered⟩ := List.pairwise_cons.mp ordered
    by_cases old : window < now - time
    · have gone : ¬now - time ≤ window := Nat.not_le_of_lt old
      rw [List.filter_cons_of_neg (by simpa using gone), ← ih ordered]
      exact List.dropWhile_cons_of_pos (by simpa using old)
    · have kept : ∀ later ∈ time :: rest, now - later ≤ window := by
        intro later member
        rcases List.mem_cons.mp member with rfl | member
        · omega
        · have := before later member
          omega
      rw [List.filter_eq_self.mpr (by simpa using kept)]
      exact List.dropWhile_cons_of_neg (by simpa using old)

/-- Only times that have left the window are dropped from a queue. -/
theorem queue_eq_append_recent (r : Register) (now : Nat) (user : String) :
    ∃ gone, r.attemptsOf user = gone ++ r.recent now user ∧
      ∀ time ∈ gone, r.limits.window < now - time := by
  let expired : Nat → Bool := fun time => r.limits.window < now - time
  refine ⟨(r.attemptsOf user).takeWhile expired, List.takeWhile_append_dropWhile.symm, ?_⟩
  intro time member
  simpa [expired] using List.mem_takeWhile_imp member

end Register

namespace Admission

theorem Quota.limit_ne_rate (q : Quota) : q.limit ≠ .rate := by
  cases q <;> simp [Quota.limit]

theorem refusedFor_rate (r : Register) (now : Nat) (c : Connection) :
    (refusedFor .rate (r.connect now c).2 ↔
      r.limits.greatest .rate ≤ (r.recent now c.user).length) ∧
    (refusedFor .rate (r.connect now c).2 ↔ (r.connect now c).2 =
      .error ⟨c.user, .rate, (r.recent now c.user).length, r.limits.greatest .rate⟩) := by
  obtain ⟨full, same⟩ | ⟨room, refusal, found, same⟩ | ⟨room, free, same⟩ := r.connect_cases now c
  · simp [same, refusedFor, full]
  · obtain ⟨q, _, _, rfl⟩ := Register.refusal?_some found
    simp [same, refusedFor, Quota.limit_ne_rate, room]
  · simp [same, refusedFor, room]

def Attempt.passed (a : Attempt) : Bool := !refusedFor .rate a.result

/-- The times of the user's attempts that were not refused for the rate, oldest first. -/
def passedTimes (attempts : List Attempt) (user : String) : List Nat :=
  (attempts.filter fun a => a.connection.user = user && a.passed).map (·.time)

theorem passedTimes_append (before after : List Attempt) (user : String) :
    passedTimes (before ++ after) user = passedTimes before user ++ passedTimes after user := by
  simp [passedTimes]

theorem passedTimes_single (a : Attempt) (user : String) :
    passedTimes [a] user = if a.connection.user = user ∧ a.passed then [a.time] else [] := by
  by_cases counted : a.connection.user = user ∧ a.passed
  · simp [passedTimes, counted]
  · rw [if_neg counted]
    simpa [passedTimes] using counted

namespace Course

def current (s : Course) (user : String) : List Nat :=
  (passedTimes s.attempts user).filter fun time => s.clock - time ≤ s.register.limits.window

structure Faithful (s : Course) : Prop where
  ordered : ∀ user, (passedTimes s.attempts user).Pairwise (· ≤ ·)
  past : ∀ user, ∀ time ∈ passedTimes s.attempts user, time ≤ s.clock
  queued : ∀ user, ∃ gone, passedTimes s.attempts user = gone ++ s.register.attemptsOf user ∧
    ∀ time ∈ gone, s.register.limits.window < s.clock - time
  sparse : ∀ user first, ((passedTimes s.attempts user).filter fun time =>
    first ≤ time ∧ time ≤ first + s.register.limits.window).length ≤ s.register.limits.greatest .rate

theorem faithful_start (limits : Limits) (clock : Nat) : (start limits clock).Faithful where
  ordered _ := .nil
  past _ _ member := nomatch member
  queued _ := ⟨[], rfl, fun _ member => nomatch member⟩
  sparse _ _ := Nat.zero_le _

namespace Faithful

variable {s : Course}

theorem ordered_queue (faithful : s.Faithful) (user : String) :
    (s.register.attemptsOf user).Pairwise (· ≤ ·) := by
  obtain ⟨gone, split, _⟩ := faithful.queued user
  have ordered := faithful.ordered user
  rw [split] at ordered
  exact (List.pairwise_append.mp ordered).2.1

theorem recent_eq_filter (faithful : s.Faithful) (user : String) :
    s.register.recent s.clock user = (s.register.attemptsOf user).filter fun time =>
      s.clock - time ≤ s.register.limits.window :=
  Register.prune_eq_filter (faithful.ordered_queue user) s.register.limits.window s.clock

/-- What is left of the pruned queue is what the whole history has within the window. -/
theorem recent_eq (faithful : s.Faithful) (user : String) :
    s.register.recent s.clock user = s.current user := by
  obtain ⟨gone, split, old⟩ := faithful.queued user
  have none : gone.filter (fun time => s.clock - time ≤ s.register.limits.window) = [] := by
    rw [List.filter_eq_nil_iff]
    intro time member
    rw [decide_eq_true_eq, Nat.not_le]
    exact old time member
  rw [current, split, List.filter_append, none, List.nil_append]
  exact faithful.recent_eq_filter user

theorem queued_recent (faithful : s.Faithful) (user : String) :
    ∃ gone, passedTimes s.attempts user = gone ++ s.register.recent s.clock user ∧
      ∀ time ∈ gone, s.register.limits.window < s.clock - time := by
  obtain ⟨gone, split, old⟩ := faithful.queued user
  obtain ⟨further, kept, expired⟩ := s.register.queue_eq_append_recent s.clock user
  refine ⟨gone ++ further, ?_, ?_⟩
  · rw [split, kept, List.append_assoc]
  · intro time member
    rcases List.mem_append.mp member with member | member
    · exact old time member
    · exact expired time member

theorem of_queues (faithful : s.Faithful) {r : Register} (same : r.limits = s.register.limits)
    (queues : ∀ user, r.attemptsOf user = s.register.attemptsOf user ∨
      r.attemptsOf user = s.register.recent s.clock user) :
    ({ s with register := r } : Course).Faithful where
  ordered := faithful.ordered
  past := faithful.past
  queued user := by
    rcases queues user with kept | pruned
    · rw [kept, same]
      exact faithful.queued user
    · rw [pruned, same]
      exact faithful.queued_recent user
  sparse := by
    rw [same]
    exact faithful.sparse

theorem refused (faithful : s.Faithful) (a : Attempt) (stopped : a.passed = false) :
    ({ s with attempts := s.attempts ++ [a] } : Course).Faithful := by
  have same (user : String) :
      passedTimes (s.attempts ++ [a]) user = passedTimes s.attempts user := by
    rw [passedTimes_append, passedTimes_single, if_neg (by simp [stopped]), List.append_nil]
  refine ⟨fun user => ?_, fun user => ?_, fun user => ?_, fun user first => ?_⟩
  · exact (same user).symm ▸ faithful.ordered user
  · exact (same user).symm ▸ faithful.past user
  · exact (same user).symm ▸ faithful.queued user
  · exact (same user).symm ▸ faithful.sparse user first

/-- Every interval of a window's length that holds the present holds only times that count now. -/
theorem interval_le_current (s : Course) (user : String) {first : Nat}
    (present : s.clock ≤ first + s.register.limits.window) :
    ((passedTimes s.attempts user).filter fun time =>
      first ≤ time ∧ time ≤ first + s.register.limits.window).length ≤
        (s.current user).length := by
  refine (List.monotone_filter_right _ fun time inside => ?_).length_le
  simp only [decide_eq_true_eq] at inside ⊢
  omega

/-- Where there is room now, one more fits into every interval. -/
theorem interval_noted (faithful : s.Faithful) (user : String)
    (room : (s.register.recent s.clock user).length < s.register.limits.greatest .rate)
    (first : Nat) :
    ((passedTimes s.attempts user).filter fun time =>
        first ≤ time ∧ time ≤ first + s.register.limits.window).length +
      ([s.clock].filter fun time =>
        first ≤ time ∧ time ≤ first + s.register.limits.window).length ≤
      s.register.limits.greatest .rate := by
  by_cases inside : first ≤ s.clock ∧ s.clock ≤ first + s.register.limits.window
  · have others := interval_le_current s user inside.2
    rw [← faithful.recent_eq] at others
    rw [List.filter_cons_of_pos (by simpa using inside)]
    simp only [List.filter_nil, List.length_singleton]
    omega
  · rw [List.filter_cons_of_neg (by simpa using inside)]
    exact faithful.sparse user first

/-- An attempt that passes is noted, and one more fits into every interval around it. -/
theorem passes (faithful : s.Faithful) {r : Register} (a : Attempt) (now : a.time = s.clock)
    (passed : a.passed) (same : r.limits = s.register.limits)
    (room : (s.register.recent s.clock a.connection.user).length <
      s.register.limits.greatest .rate)
    (queues : ∀ user, r.attemptsOf user =
      (s.register.noted s.clock a.connection.user).attemptsOf user) :
    ({ s with register := r, attempts := s.attempts ++ [a] } : Course).Faithful := by
  have times (user : String) : passedTimes (s.attempts ++ [a]) user =
      passedTimes s.attempts user ++ if a.connection.user = user then [s.clock] else [] := by
    rw [passedTimes_append, passedTimes_single, now]
    simp [passed]
  refine ⟨fun user => ?_, fun user => ?_, fun user => ?_, fun user first => ?_⟩
  · rw [times, List.pairwise_append]
    refine ⟨faithful.ordered user, by split <;> simp, fun time member last inside => ?_⟩
    have last : last = s.clock := by
      split at inside <;> simp_all
    rw [last]
    exact faithful.past user time member
  · intro time member
    rw [times, List.mem_append] at member
    rcases member with member | member
    · exact faithful.past user time member
    · split at member <;> simp_all
  · simp only [queues, Register.attemptsOf_noted, same]
    by_cases own : user = a.connection.user
    · obtain ⟨gone, split, old⟩ := faithful.queued_recent user
      refine ⟨gone, ?_, old⟩
      rw [times, split, if_pos own.symm, if_pos own, own, List.append_assoc]
    · obtain ⟨gone, split, old⟩ := faithful.queued user
      refine ⟨gone, ?_, old⟩
      rw [times, split, if_neg (Ne.symm own), if_neg own, List.append_nil]
  · simp only [same]
    rw [times, List.filter_append, List.length_append]
    by_cases own : a.connection.user = user
    · subst own
      rw [if_pos rfl]
      exact faithful.interval_noted a.connection.user room first
    · rw [if_neg own]
      exact faithful.sparse user first

theorem wait (faithful : s.Faithful) (nanos : Nat) :
    ({ s with clock := s.clock + nanos } : Course).Faithful where
  ordered := faithful.ordered
  past user time member := Nat.le_trans (faithful.past user time member) (Nat.le_add_right _ _)
  queued user := by
    obtain ⟨gone, split, old⟩ := faithful.queued user
    refine ⟨gone, split, fun time member => ?_⟩
    have := old time member
    simp only
    omega
  sparse := faithful.sparse

end Faithful

theorem faithful_step (s : Course) (act : Act) (faithful : s.Faithful) : (s.step act).Faithful := by
  cases act with
  | connect c =>
    obtain ⟨_, same⟩ | ⟨room, refusal, found, same⟩ | ⟨room, free, same⟩ :=
      s.register.connect_cases s.clock c
    · have pruned : ({ s with register := (s.register.connect s.clock c).1 } : Course).Faithful := by
        rw [same]
        refine faithful.of_queues rfl fun user => ?_
        rw [Register.attemptsOf_insert]
        split
        · rename_i own
          exact .inr (own ▸ rfl)
        · exact .inl rfl
      exact pruned.refused ⟨s.clock, c, (s.register.connect s.clock c).2⟩ (by rw [same]; rfl)
    · obtain ⟨q, _, _, rfl⟩ := Register.refusal?_some found
      simp only [step, same]
      refine faithful.passes ⟨s.clock, c, _⟩ rfl ?_ rfl room fun user => rfl
      cases q <;> rfl
    · simp only [step, same]
      exact faithful.passes ⟨s.clock, c, .ok ()⟩ rfl rfl rfl room fun user => rfl
  | release c => exact faithful.of_queues rfl fun user => .inl rfl
  | sweep =>
    exact faithful.of_queues rfl fun user => .inr (s.register.attemptsOf_sweep s.clock user)
  | wait nanos => exact faithful.wait nanos

theorem faithful_run (limits : Limits) (clock : Nat) (acts : List Act) :
    (run limits clock acts).Faithful :=
  run_induction limits clock acts (faithful_start limits clock) faithful_step

/-- An attempt is refused for the rate exactly if so many attempts of the user passed within the
window that the limit is reached, and the refusal gives their number; so no interval of a window's
length has more of them than the limit. -/
theorem rate_window_exact (limits : Limits) (clock : Nat) (acts : List Act) (c : Connection) :
    let s := run limits clock acts
    let result := (s.register.connect s.clock c).2
    let current := ((passedTimes s.attempts c.user).filter fun time =>
      s.clock - time ≤ limits.window).length
    (refusedFor .rate result ↔ limits.greatest .rate ≤ current) ∧
      (refusedFor .rate result ↔
        result = .error ⟨c.user, .rate, current, limits.greatest .rate⟩) ∧
      ∀ first, ((passedTimes s.attempts c.user).filter fun time =>
        first ≤ time ∧ time ≤ first + limits.window).length ≤ limits.greatest .rate := by
  intro s result current
  have faithful : s.Faithful := faithful_run limits clock acts
  have unchanged : s.register.limits = limits := limits_run limits clock acts
  have counted : (s.register.recent s.clock c.user).length = current := by
    rw [faithful.recent_eq, Course.current, unchanged]
  obtain ⟨reached, told⟩ := refusedFor_rate s.register s.clock c
  rw [counted, unchanged] at reached told
  have sparse := faithful.sparse c.user
  rw [unchanged] at sparse
  exact ⟨reached, told, sparse⟩

end Course

end Admission

end NotificationRelay
