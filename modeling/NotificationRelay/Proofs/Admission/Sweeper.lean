import NotificationRelay.Admission.Sweeper
import NotificationRelay.Proofs.Admission.Course

/-! The sweeper as time goes on. Its sweeps are due at whole multiples of its interval from its start
on. Whoever looks at it from time to time finds the register swept once for each stretch in which a
sweep has become due, and otherwise as it was. -/
namespace NotificationRelay.Sweeper

variable {s : Sweeper} {begun earlier now clock : Nat} {r : Register}

structure OnTime (s : Sweeper) (begun now : Nat) : Prop where
  running : s.running = true
  interval : leastInterval ≤ s.interval
  started : begun ≤ now
  last : s.last = begun + (now - begun) / s.interval * s.interval

theorem onTime_start (interval now : Nat) : (start interval now).1.OnTime now now where
  running := rfl
  interval := Nat.le_max_right interval leastInterval
  started := Nat.le_refl now
  last := by
    rw [Nat.sub_self, Nat.zero_div, Nat.zero_mul]
    rfl

theorem OnTime.positive (onTime : s.OnTime begun now) : 0 < s.interval :=
  Nat.lt_of_lt_of_le (by decide) onTime.interval

theorem OnTime.due (onTime : s.OnTime begun earlier) (later : earlier ≤ now) :
    (earlier - begun) / s.interval + (now - s.last) / s.interval = (now - begun) / s.interval := by
  have started := onTime.started
  have whole : (earlier - begun) / s.interval * s.interval ≤ earlier - begun :=
    Nat.div_mul_le_self _ _
  have since : now - begun = (now - s.last) + (earlier - begun) / s.interval * s.interval := by
    rw [onTime.last]
    omega
  rw [since, Nat.add_mul_div_right _ _ onTime.positive, Nat.add_comm]

def Passes (interval begun earlier now : Nat) : Prop :=
  (earlier - begun) / interval < (now - begun) / interval

instance (interval begun earlier now : Nat) : Decidable (Passes interval begun earlier now) :=
  Nat.decLt _ _

theorem run_of_due (running : s.running = true) (due : 0 < (now - s.last) / s.interval)
    (clock : Nat) (r : Register) :
    (s.run now clock r).1 = { s with last := s.last + (now - s.last) / s.interval * s.interval } ∧
      (s.run now clock r).2.1 = (r.sweep clock).1 := by
  have active : (s.running && decide (0 < (now - s.last) / s.interval)) = true := by
    rw [running, decide_eq_true due]
    rfl
  rw [Sweeper.run, if_pos active]
  exact ⟨rfl, rfl⟩

theorem run_of_idle (idle : (now - s.last) / s.interval = 0) : s.run now clock r = (s, r, []) := by
  have inactive : ¬(s.running && decide (0 < (now - s.last) / s.interval)) = true := by
    simp [idle]
  rw [Sweeper.run, if_neg inactive]

theorem OnTime.run (onTime : s.OnTime begun earlier) (later : earlier ≤ now) (clock : Nat)
    (r : Register) :
    (s.run now clock r).1.OnTime begun now ∧ (s.run now clock r).1.interval = s.interval ∧
      (s.run now clock r).2.1 =
        if Passes s.interval begun earlier now then (r.sweep clock).1 else r := by
  have due := onTime.due later
  have started := Nat.le_trans onTime.started later
  rcases Nat.eq_zero_or_pos ((now - s.last) / s.interval) with idle | some
  · rw [idle, Nat.add_zero] at due
    have still : ¬Passes s.interval begun earlier now := Nat.not_lt_of_le (Nat.le_of_eq due.symm)
    rw [run_of_idle idle, if_neg still]
    exact ⟨⟨onTime.running, onTime.interval, started, due ▸ onTime.last⟩, rfl, rfl⟩
  · have passes : Passes s.interval begun earlier now := by
      rw [Passes, ← due]
      exact Nat.lt_add_of_pos_right some
    have next : s.last + (now - s.last) / s.interval * s.interval =
        begun + (now - begun) / s.interval * s.interval := by
      rw [← due, Nat.add_mul, ← Nat.add_assoc, ← onTime.last]
    obtain ⟨after, swept⟩ := run_of_due onTime.running some clock r
    rw [after, swept, if_pos passes]
    exact ⟨⟨onTime.running, onTime.interval, started, next⟩, rfl, rfl⟩

def watch (s : Sweeper) (r : Register) : List (Nat × Nat) → Sweeper × Register
  | [] => (s, r)
  | (now, clock) :: rest =>
    let (s, r, _) := s.run now clock r
    s.watch r rest

/-- The moments by which a sweep has become due that was not due by the one before. -/
def sweeps (interval begun earlier : Nat) : List (Nat × Nat) → List Nat
  | [] => []
  | (now, clock) :: rest =>
    (if Passes interval begun earlier now then [clock] else []) ++ sweeps interval begun now rest

theorem watch_eq {moments : List (Nat × Nat)} (onTime : s.OnTime begun earlier)
    (ordered : (earlier :: moments.map (·.1)).Pairwise (· ≤ ·)) :
    (s.watch r moments).2 =
      (sweeps s.interval begun earlier moments).foldl (fun r clock => (r.sweep clock).1) r := by
  induction moments generalizing s r earlier with
  | nil => rfl
  | cons moment rest ih =>
    obtain ⟨now, clock⟩ := moment
    obtain ⟨first, ordered⟩ := List.pairwise_cons.mp ordered
    obtain ⟨after, kept, swept⟩ := onTime.run (first now List.mem_cons_self) clock r
    rw [watch, sweeps, List.foldl_append]
    dsimp only
    rw [ih after ordered, kept, swept]
    split <;> rfl

/-- What a sweeper does to a register is to sweep it, at the moments when that has become due. An
interval of less than a second counts as one of a second. -/
theorem watch_start (interval begun : Nat) (r : Register) {moments : List (Nat × Nat)}
    (ordered : (begun :: moments.map (·.1)).Pairwise (· ≤ ·)) :
    ((start interval begun).1.watch r moments).2 =
      (sweeps (max interval leastInterval) begun begun moments).foldl
        (fun r clock => (r.sweep clock).1) r :=
  watch_eq (onTime_start interval begun) ordered

theorem reached_watch {limits : Limits} (reached : Register.Reached limits r)
    (moments : List (Nat × Nat)) : Register.Reached limits (s.watch r moments).2 ∧
      (s.watch r moments).2.opened = r.opened := by
  induction moments generalizing s r with
  | nil => exact ⟨reached, rfl⟩
  | cons moment rest ih =>
    obtain ⟨now, clock⟩ := moment
    have step : Register.Reached limits (s.run now clock r).2.1 ∧
        (s.run now clock r).2.1.opened = r.opened := by
      rw [Sweeper.run]
      dsimp only
      split
      · exact ⟨reached.sweep clock, rfl⟩
      · exact ⟨reached, rfl⟩
    obtain ⟨later, opened⟩ := ih (s := (s.run now clock r).1) step.1
    exact ⟨later, opened.trans step.2⟩

/-- After it has been stopped a sweeper leaves the register alone. -/
theorem run_stop (s : Sweeper) (now clock : Nat) (r : Register) :
    s.stop.1.run now clock r = (s.stop.1, r, []) := rfl

end NotificationRelay.Sweeper
