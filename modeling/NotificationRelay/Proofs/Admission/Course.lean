import NotificationRelay.Admission.Register
import NotificationRelay.Proofs.Store

/-! The course of a register: connections are attempted and released, the attempts are swept, and
time goes by, in any order. Each operation of a register has one lemma here that says all it can
do; what holds along a course is derived from these. -/
namespace NotificationRelay

namespace Connection

theorem quotas_nodup (c : Connection) : c.quotas.Nodup := by
  unfold quotas
  cases named? c.project <;> cases named? c.job <;> simp

end Connection

namespace Register

def recent (r : Register) (now : Nat) (user : String) : List Nat :=
  prune r.limits.window now (r.attemptsOf user)

def noted (r : Register) (now : Nat) (user : String) : Register :=
  { r with attempts := r.attempts.insert user (r.recent now user ++ [now]) }

/-- What becomes of an attempt: it comes too soon after others, or it is noted and then refused for
a quota, or it is noted and opens the connection. -/
theorem connect_cases (r : Register) (now : Nat) (c : Connection) :
    (r.limits.greatest .rate ≤ (r.recent now c.user).length ∧
      r.connect now c = ({ r with attempts := r.attempts.insert c.user (r.recent now c.user) },
        .error ⟨c.user, .rate, (r.recent now c.user).length, r.limits.greatest .rate⟩)) ∨
    ((r.recent now c.user).length < r.limits.greatest .rate ∧
      ∃ refusal, r.refusal? c = some refusal ∧
        r.connect now c = (r.noted now c.user, .error refusal)) ∨
    ((r.recent now c.user).length < r.limits.greatest .rate ∧ r.refusal? c = none ∧
      r.connect now c = ((r.noted now c.user).enter c, .ok ())) := by
  by_cases full : r.limits.greatest .rate ≤ (r.recent now c.user).length
  · exact .inl ⟨full, if_pos full⟩
  · have room := Nat.lt_of_not_le full
    cases found : r.refusal? c with
    | some refusal =>
      refine .inr (.inl ⟨room, refusal, rfl, ?_⟩)
      have refused : (r.noted now c.user).refusal? c = some refusal := found
      rw [noted, recent] at refused
      refine (if_neg full).trans ?_
      rw [refused]
      rfl
    | none =>
      refine .inr (.inr ⟨room, rfl, ?_⟩)
      have admitted : (r.noted now c.user).refusal? c = none := found
      rw [noted, recent] at admitted
      refine (if_neg full).trans ?_
      rw [admitted]
      rfl

theorem refusal?_some {r : Register} {c : Connection} {refusal : Refusal}
    (found : r.refusal? c = some refusal) :
    ∃ q ∈ c.quotas, r.limits.greatest q.limit ≤ r.opened.count q ∧
      refusal = ⟨c.user, q.limit, r.opened.count q, r.limits.greatest q.limit⟩ := by
  obtain ⟨q, first, rfl⟩ := Option.map_eq_some_iff.mp found
  exact ⟨q, List.mem_of_find?_eq_some first, by simpa using List.find?_some first, rfl⟩

theorem refusal?_none {r : Register} {c : Connection} (found : r.refusal? c = none) {q : Quota}
    (member : q ∈ c.quotas) : r.opened.count q < r.limits.greatest q.limit := by
  have absent := List.find?_eq_none.mp (Option.map_eq_none_iff.mp found) q member
  simpa using absent

@[simp]
theorem limits_connect (r : Register) (now : Nat) (c : Connection) :
    (r.connect now c).1.limits = r.limits := by
  obtain ⟨_, same⟩ | ⟨_, _, _, same⟩ | ⟨_, _, same⟩ := r.connect_cases now c <;> rw [same] <;> rfl

@[simp]
theorem limits_release (r : Register) (c : Connection) : (r.release c).1.limits = r.limits := rfl

@[simp]
theorem limits_sweep (r : Register) (now : Nat) : (r.sweep now).1.limits = r.limits := rfl

@[simp]
theorem opened_sweep (r : Register) (now : Nat) : (r.sweep now).1.opened = r.opened := rfl

theorem count_enter (r : Register) (c : Connection) (q : Quota) :
    (r.enter c).opened.count q = r.opened.count q + c.quotas.count q :=
  Tally.count_addAll c.quotas r.opened q

theorem count_release (r : Register) (c : Connection) (q : Quota) :
    (r.release c).1.opened.count q = r.opened.count q - c.quotas.count q :=
  Tally.count_dropAll c.quotas r.opened q

@[simp]
theorem attemptsOf_release (r : Register) (c : Connection) (user : String) :
    (r.release c).1.attemptsOf user = r.attemptsOf user := rfl

@[simp]
theorem attemptsOf_enter (r : Register) (c : Connection) (user : String) :
    (r.enter c).attemptsOf user = r.attemptsOf user := rfl

theorem attemptsOf_insert (r : Register) (user other : String) (times : List Nat) :
    attemptsOf { r with attempts := r.attempts.insert user times } other =
      if other = user then times else r.attemptsOf other := by
  unfold attemptsOf
  rw [Store.get?_insert]
  split <;> rfl

theorem attemptsOf_noted (r : Register) (now : Nat) (user other : String) :
    (r.noted now user).attemptsOf other =
      if other = user then r.recent now user ++ [now] else r.attemptsOf other :=
  r.attemptsOf_insert user other _

theorem attemptsOf_sweep (r : Register) (now : Nat) (user : String) :
    (r.sweep now).1.attemptsOf user = r.recent now user := by
  simp only [attemptsOf, sweep, recent, Store.get?_filterMap]
  cases r.attempts.get? user with
  | none => rfl
  | some times =>
    simp only [Option.bind_some, Option.getD_some]
    split
    · rename_i empty
      rw [List.isEmpty_iff.mp empty]
      rfl
    · rfl

/-- What a register can come to, whatever the times are at which it is used: they need not be in
order. -/
inductive Reached (limits : Limits) : Register → Prop where
  | make : Reached limits (make limits)
  | connect {r : Register} (before : Reached limits r) (now : Nat) (c : Connection) :
      Reached limits (r.connect now c).1
  | release {r : Register} (before : Reached limits r) (c : Connection) :
      Reached limits (r.release c).1
  | sweep {r : Register} (before : Reached limits r) (now : Nat) : Reached limits (r.sweep now).1

theorem Reached.limits_eq {limits : Limits} {r : Register} (reached : Reached limits r) :
    r.limits = limits := by
  induction reached with
  | make => rfl
  | connect _ now c same => exact (limits_connect _ now c).trans same
  | release _ _ same => exact same
  | sweep _ _ same => exact same

end Register

namespace Admission

inductive Act where
  | connect (c : Connection)
  | release (c : Connection)
  | sweep
  | wait (nanos : Nat)
deriving DecidableEq, Repr

structure Attempt where
  time : Nat
  connection : Connection
  result : Except Refusal Unit

def refusedFor (limit : Limit) : Except Refusal Unit → Bool
  | .error refusal => refusal.limit = limit
  | .ok () => false

/-- A register at a time, and all attempts so far, oldest first. -/
structure Course where
  clock : Nat
  register : Register
  attempts : List Attempt

namespace Course

def start (limits : Limits) (clock : Nat) : Course := ⟨clock, .make limits, []⟩

def step (s : Course) : Act → Course
  | .connect c =>
    { s with
      register := (s.register.connect s.clock c).1
      attempts := s.attempts ++ [⟨s.clock, c, (s.register.connect s.clock c).2⟩] }
  | .release c => { s with register := (s.register.release c).1 }
  | .sweep => { s with register := (s.register.sweep s.clock).1 }
  | .wait nanos => { s with clock := s.clock + nanos }

def run (limits : Limits) (clock : Nat) (acts : List Act) : Course :=
  acts.foldl step (start limits clock)

/-- What holds at the start and is kept by each step holds along every course. -/
theorem run_induction {P : Course → Prop} (limits : Limits) (clock : Nat) (acts : List Act)
    (initial : P (start limits clock)) (kept : ∀ s act, P s → P (s.step act)) :
    P (run limits clock acts) := by
  unfold run
  generalize start limits clock = s at initial
  induction acts generalizing s with
  | nil => exact initial
  | cons act rest ih => exact ih (s.step act) (kept s act initial)

theorem limits_step (s : Course) (act : Act) : (s.step act).register.limits = s.register.limits := by
  cases act <;> simp [step]

@[simp]
theorem limits_run (limits : Limits) (clock : Nat) (acts : List Act) :
    (run limits clock acts).register.limits = limits :=
  run_induction (P := fun s => s.register.limits = limits) limits clock acts rfl
    fun s act same => (s.limits_step act).trans same

theorem reached_run (limits : Limits) (clock : Nat) (acts : List Act) :
    Register.Reached limits (run limits clock acts).register := by
  refine run_induction (P := fun s => Register.Reached limits s.register) limits clock acts .make ?_
  intro s act reached
  cases act with
  | connect c => exact reached.connect s.clock c
  | release c => exact reached.release c
  | sweep => exact reached.sweep s.clock
  | wait nanos => exact reached

end Course

end Admission

end NotificationRelay
