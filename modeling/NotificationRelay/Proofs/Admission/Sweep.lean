import NotificationRelay.Proofs.Admission.Window

/-! Sweeping. As long as the clock has not gone back, a sweep takes out exactly the times that have
left the window; a user who has none left is not kept, and under limits that pass their check no user
is ever kept without any. -/
namespace NotificationRelay

theorem Limits.named_pos {l : Limits} (valid : l.check = .ok ()) : ∀ limit ∈ l.named, 0 < limit.2 := by
  intro limit member
  unfold check at valid
  split at valid
  · cases valid
  · rename_i none
    have given := List.find?_eq_none.mp none limit member
    exact Nat.pos_of_ne_zero (by simpa using given)

theorem Limits.rate_pos {l : Limits} (valid : l.check = .ok ()) : 0 < l.greatest .rate :=
  named_pos valid ("connection_rate_limit", l.rate.toNat) (by simp [named])

namespace Register

def swept (window now : Nat) (times : List Nat) : Option (List Nat) :=
  if prune window now times = [] then none else some (prune window now times)

theorem attempts_sweep (r : Register) (now : Nat) :
    (r.sweep now).1.attempts = r.attempts.filterMap (swept r.limits.window now) := by
  simp only [sweep, List.isEmpty_iff]
  rfl

/-- What a sweep keeps of a queue in order is what is still within the window. -/
theorem swept_eq {times : List Nat} (ordered : times.Pairwise (· ≤ ·)) (window now : Nat) :
    swept window now times =
      (let fresh := times.filter fun time => now - time ≤ window
      if fresh = [] then none else some fresh) := by
  rw [swept, prune_eq_filter ordered]

/-- Pruning a queue in order takes out what has left the window. -/
theorem length_eq_expired_add_prune {times : List Nat} (ordered : times.Pairwise (· ≤ ·))
    (window now : Nat) : times.length =
      (times.filter fun time => window < now - time).length + (prune window now times).length := by
  have opposite (time : Nat) :
      (!decide (window < now - time)) = decide (now - time ≤ window) := by
    rw [← decide_not]
    exact decide_eq_decide.mpr Nat.not_lt
  rw [prune_eq_filter ordered,
    List.length_eq_length_filter_add fun time => decide (window < now - time)]
  simp only [opposite]

theorem removed_sweep (r : Register) (now : Nat) :
    (r.sweep now).2 = total (r.attempts.values.map List.length) -
      total ((r.sweep now).1.attempts.values.map List.length) := rfl

theorem swept_ne_nil (window now : Nat) (times : List Nat) : swept window now times ≠ some [] := by
  unfold swept
  split
  · exact nofun
  · rename_i left
    exact fun none => left (Option.some.inj none)

theorem length_swept (window now : Nat) (times : List Nat) :
    ((swept window now times).map List.length).getD 0 = (prune window now times).length := by
  unfold swept
  split
  · rename_i none
    rw [none]
    rfl
  · rfl

def Occupied (r : Register) : Prop := ∀ user, r.attempts.get? user ≠ some []

theorem Occupied.insert {r : Register} (occupied : r.Occupied) (user : String) {times : List Nat}
    (left : times ≠ []) : Occupied { r with attempts := r.attempts.insert user times } := by
  intro other
  rw [Store.get?_insert]
  split
  · exact fun none => left (Option.some.inj none)
  · exact occupied other

theorem Occupied.connect {r : Register} (occupied : r.Occupied)
    (allowed : 0 < r.limits.greatest .rate) (now : Nat) (c : Connection) : (r.connect now c).1.Occupied := by
  have noted : (r.noted now c.user).Occupied := occupied.insert c.user (by simp)
  obtain ⟨full, same⟩ | ⟨_, _, _, same⟩ | ⟨_, _, same⟩ := r.connect_cases now c
  · rw [same]
    -- the queue holds as many times as the limit allows, and the limit allows some
    refine occupied.insert c.user fun none => ?_
    rw [none] at full
    exact absurd allowed (Nat.not_lt_of_le full)
  · rw [same]
    exact noted
  · rw [same]
    exact noted

theorem occupied_sweep (r : Register) (now : Nat) : (r.sweep now).1.Occupied := by
  intro user empty
  rw [attempts_sweep, Store.get?_filterMap] at empty
  obtain ⟨times, _, kept⟩ := Option.bind_eq_some_iff.mp empty
  exact swept_ne_nil _ _ _ kept

theorem Reached.occupied {limits : Limits} {r : Register} (allowed : 0 < limits.greatest .rate)
    (reached : Reached limits r) : r.Occupied := by
  induction reached with
  | make => exact fun _ => nofun
  | connect before now c occupied =>
    rw [← before.limits_eq] at allowed
    exact occupied.connect allowed now c
  | release _ c occupied => exact occupied
  | sweep _ now _ => exact occupied_sweep _ now

end Register

namespace Admission.Course

namespace Faithful

variable {s : Course}

theorem ordered_values (faithful : s.Faithful) {times : List Nat}
    (among : times ∈ s.register.attempts.values) : times.Pairwise (· ≤ ·) := by
  obtain ⟨⟨user, times⟩, member, rfl⟩ := List.mem_map.mp among
  have ordered := faithful.ordered_queue user
  rw [Register.attemptsOf, Store.get?_of_mem member] at ordered
  exact ordered

/-- The times that have left the window and those that a sweep leaves are all there are. -/
theorem total_sweep (faithful : s.Faithful) :
    total (s.register.attempts.values.map List.length) =
      total (s.register.attempts.values.map fun times =>
        (times.filter fun time => s.register.limits.window < s.clock - time).length) +
      total ((s.register.sweep s.clock).1.attempts.values.map List.length) := by
  rw [Register.attempts_sweep]
  refine Store.total_filterMap s.register.attempts fun times among => ?_
  rw [Register.length_swept]
  exact Register.length_eq_expired_add_prune (faithful.ordered_values among) _ _

/-- What a sweep takes out of all queues together. -/
theorem removed_eq (faithful : s.Faithful) :
    (s.register.sweep s.clock).2 = total (s.register.attempts.values.map fun times =>
      (times.filter fun time => s.register.limits.window < s.clock - time).length) := by
  rw [Register.removed_sweep, faithful.total_sweep, Nat.add_sub_cancel]

/-- What a sweep leaves to a user. -/
theorem left_sweep (faithful : s.Faithful) (user : String) :
    (s.register.sweep s.clock).1.attempts.get? user =
      (s.register.attempts.get? user).bind fun times =>
        let fresh := times.filter fun time => s.clock - time ≤ s.register.limits.window
        if fresh = [] then none else some fresh := by
  rw [Register.attempts_sweep, Store.get?_filterMap]
  refine Option.bind_congr fun times found => ?_
  have among : times ∈ s.register.attempts.values :=
    List.mem_map.mpr ⟨(user, times), Store.mem_of_get? found, rfl⟩
  exact Register.swept_eq (faithful.ordered_values among) _ _

end Faithful

/-- As long as the clock has not gone back, a sweep leaves to each user exactly the noted times that
are no older than the window, in their order, and drops the user who has none left; it tells how many
times it takes out of all queues together, and touches no connection. Under limits that pass their
check no user is ever kept without a time, whatever the clock does. -/
theorem sweep_exact (limits : Limits) (clock : Nat) (acts : List Act) :
    let s := run limits clock acts
    let before := s.register
    let after := (before.sweep s.clock).1
    let removed := (before.sweep s.clock).2
    (∀ user, after.attempts.get? user = (before.attempts.get? user).bind fun times =>
      let fresh := times.filter fun time => s.clock - time ≤ limits.window
      if fresh = [] then none else some fresh) ∧
      removed = total (before.attempts.values.map fun times =>
        (times.filter fun time => limits.window < s.clock - time).length) ∧
      after.opened = before.opened ∧
      (limits.check = .ok () → ∀ r, Register.Reached limits r →
        ∀ user, r.attempts.get? user ≠ some []) := by
  intro s before after removed
  have faithful : s.Faithful := faithful_run limits clock acts
  have unchanged : s.register.limits = limits := limits_run limits clock acts
  have left := faithful.left_sweep
  have told := faithful.removed_eq
  rw [unchanged] at left told
  exact ⟨left, told, rfl, fun valid r reached => reached.occupied (Limits.rate_pos valid)⟩

def waned : List Act :=
  [.connect ⟨"u", none, some "j"⟩, .wait (30 * Limits.nanosPerSecond), .connect ⟨"v", none, none⟩,
    .wait (31 * Limits.nanosPerSecond)]

theorem sweep_exact_waned :
    let s := run .default 0 waned
    let after := (s.register.sweep s.clock).1
    Limits.default.check = .ok () ∧ after.attempts.get? "u" = none ∧
      after.attempts.get? "v" = some [30 * Limits.nanosPerSecond] ∧
      (s.register.sweep s.clock).2 = 1 ∧ after.opened.count (.job "u" "j") = 1 ∧
      after.attempts.get? "v" ≠ some [] := by
  intro s after
  obtain ⟨left, told, opened, occupied⟩ := sweep_exact .default 0 waned
  have reached : Register.Reached .default after := (reached_run .default 0 waned).sweep s.clock
  refine ⟨rfl, (left "u").trans ?_, (left "v").trans ?_, told.trans ?_, ?_,
    occupied rfl after reached "v"⟩
  · decide
  · decide
  · decide
  · rw [opened]
    decide

end Admission.Course

end NotificationRelay
