import NotificationRelay.Proofs.Admission.Course

/-! Acts that leave no trace. A course is compared with the same course without some of its sweeps
and without some of the attempts that come too soon. The queues of the two registers may differ,
but only in times that have left the window, which is all that a later act could see of them. -/
namespace NotificationRelay

namespace Register

theorem prune_prune {window now later : Nat} (order : now ≤ later) (times : List Nat) :
    prune window later (prune window now times) = prune window later times := by
  induction times with
  | nil => rfl
  | cons time rest ih =>
    by_cases old : window < now - time
    · have older : window < later - time := by omega
      have dropped : prune window now (time :: rest) = prune window now rest :=
        List.dropWhile_cons_of_pos (by simpa using old)
      have gone : prune window later (time :: rest) = prune window later rest :=
        List.dropWhile_cons_of_pos (by simpa using older)
      rw [dropped, gone]
      exact ih
    · have kept : prune window now (time :: rest) = time :: rest :=
        List.dropWhile_cons_of_neg (by simpa using old)
      rw [kept]

theorem recent_later (r : Register) {now later : Nat} (order : now ≤ later) (user : String) :
    r.recent later user = prune r.limits.window later (r.recent now user) :=
  (prune_prune order (r.attemptsOf user)).symm

structure Alike (now : Nat) (r other : Register) : Prop where
  limits : r.limits = other.limits
  opened : r.opened = other.opened
  recent : ∀ user, r.recent now user = other.recent now user

namespace Alike

variable {now : Nat} {r other : Register}

theorem refl (now : Nat) (r : Register) : r.Alike now r := ⟨rfl, rfl, fun _ => rfl⟩

theorem trans {third : Register} (first : r.Alike now other) (second : other.Alike now third) :
    r.Alike now third where
  limits := first.limits.trans second.limits
  opened := first.opened.trans second.opened
  recent user := (first.recent user).trans (second.recent user)

theorem later (alike : r.Alike now other) {later : Nat} (order : now ≤ later) :
    r.Alike later other where
  limits := alike.limits
  opened := alike.opened
  recent user := by
    rw [r.recent_later order, other.recent_later order, alike.limits, alike.recent user]

theorem refusal? (alike : r.Alike now other) (c : Connection) :
    r.refusal? c = other.refusal? c := by
  unfold Register.refusal?
  rw [alike.limits, alike.opened]

theorem insert (alike : r.Alike now other) (user : String) (times : List Nat) :
    Alike now { r with attempts := r.attempts.insert user times }
      { other with attempts := other.attempts.insert user times } where
  limits := alike.limits
  opened := alike.opened
  recent name := by
    have same := alike.recent name
    unfold Register.recent at same ⊢
    rw [attemptsOf_insert, attemptsOf_insert]
    by_cases own : name = user
    · rw [if_pos own, if_pos own, alike.limits]
    · rw [if_neg own, if_neg own]
      exact same

theorem noted (alike : r.Alike now other) (user : String) :
    (r.noted now user).Alike now (other.noted now user) := by
  unfold Register.noted
  rw [alike.recent user]
  exact alike.insert user _

theorem enter (alike : r.Alike now other) (c : Connection) :
    (r.enter c).Alike now (other.enter c) where
  limits := alike.limits
  opened := by
    unfold Register.enter
    rw [alike.opened]
  recent := alike.recent

theorem connect (alike : r.Alike now other) (c : Connection) :
    (r.connect now c).2 = (other.connect now c).2 ∧
      (r.connect now c).1.Alike now (other.connect now c).1 := by
  have recent := alike.recent c.user
  have limits := alike.limits
  have refusal := alike.refusal? c
  -- both see one window and one set of open connections, so they take the same way
  obtain ⟨full, same⟩ | ⟨room, here, found, same⟩ | ⟨room, free, same⟩ := r.connect_cases now c
  · rw [recent, limits] at full
    obtain ⟨_, also⟩ | ⟨fits, _⟩ | ⟨fits, _⟩ := other.connect_cases now c
    · have after := alike.insert c.user (other.recent now c.user)
      rw [same, also, recent, limits]
      rw [limits] at after
      exact ⟨rfl, after⟩
    · exact absurd full (Nat.not_le_of_lt fits)
    · exact absurd full (Nat.not_le_of_lt fits)
  · rw [recent, limits] at room
    rw [refusal] at found
    obtain ⟨full, _⟩ | ⟨_, there, foundToo, also⟩ | ⟨_, free, _⟩ := other.connect_cases now c
    · exact absurd full (Nat.not_le_of_lt room)
    · obtain rfl : here = there := Option.some.inj (found.symm.trans foundToo)
      rw [same, also]
      exact ⟨rfl, alike.noted c.user⟩
    · rw [free] at found
      cases found
  · rw [recent, limits] at room
    rw [refusal] at free
    obtain ⟨full, _⟩ | ⟨_, there, found, _⟩ | ⟨_, _, also⟩ := other.connect_cases now c
    · exact absurd full (Nat.not_le_of_lt room)
    · rw [free] at found
      cases found
    · rw [same, also]
      exact ⟨rfl, (alike.noted c.user).enter c⟩

theorem release (alike : r.Alike now other) (c : Connection) :
    (r.release c).1.Alike now (other.release c).1 where
  limits := alike.limits
  opened := by
    unfold Register.release
    rw [alike.opened]
  recent := alike.recent

end Alike

variable {now : Nat} {r : Register}

theorem alike_sweep (now : Nat) (r : Register) : (r.sweep now).1.Alike now r where
  limits := rfl
  opened := rfl
  recent user := by
    unfold Register.recent
    rw [attemptsOf_sweep, limits_sweep]
    exact prune_prune (Nat.le_refl now) _

/-- An attempt that comes too soon does nothing but prune the queue of its user. -/
theorem alike_refused {c : Connection} (refused : Admission.refusedFor .rate (r.connect now c).2) :
    (r.connect now c).1.Alike now r := by
  obtain ⟨_, same⟩ | ⟨_, refusal, found, same⟩ | ⟨_, _, same⟩ := r.connect_cases now c
  · rw [same]
    refine ⟨rfl, rfl, fun user => ?_⟩
    unfold Register.recent
    rw [attemptsOf_insert]
    by_cases own : user = c.user
    · rw [if_pos own, own]
      exact prune_prune (Nat.le_refl now) _
    · rw [if_neg own]
  · obtain ⟨q, _, _, rfl⟩ := refusal?_some found
    rw [same] at refused
    cases q <;> cases refused
  · rw [same] at refused
    cases refused

end Register

namespace Admission

structure Choice where
  act : Act
  stays : Bool
deriving DecidableEq, Repr

namespace Course

/-- Sweeps may be left out, and so may attempts that are refused for the rate. -/
def MayOmit (s : Course) : Act → Prop
  | .sweep => True
  | .connect c => refusedFor .rate (s.register.connect s.clock c).2
  | .release _ | .wait _ => False

/-- From here on, each act that is left out may be left out when its turn comes. -/
def Omits (s : Course) : List Choice → Prop
  | [] => True
  | choice :: rest =>
    (choice.stays = false → s.MayOmit choice.act) ∧ (s.step choice.act).Omits rest

def made (s : Course) : Act → List Attempt
  | .connect c => [⟨s.clock, c, (s.register.connect s.clock c).2⟩]
  | .release _ | .sweep | .wait _ => []

/-- The attempts that stay, with the outcomes that they have when nothing is left out. -/
def stayed (s : Course) : List Choice → List Attempt
  | [] => []
  | choice :: rest =>
    (if choice.stays then s.made choice.act else []) ++ (s.step choice.act).stayed rest

theorem attempts_step (s : Course) (act : Act) :
    (s.step act).attempts = s.attempts ++ s.made act := by
  cases act with
  | connect c => rfl
  | release c => exact (List.append_nil _).symm
  | sweep => exact (List.append_nil _).symm
  | wait nanos => exact (List.append_nil _).symm

theorem omits_append {s : Course} {before after : List Choice} (omits : s.Omits (before ++ after)) :
    s.Omits before := by
  induction before generalizing s with
  | nil => trivial
  | cons choice rest ih => exact ⟨omits.1, ih omits.2⟩

structure Alike (s other : Course) : Prop where
  clock : s.clock = other.clock
  register : s.register.Alike s.clock other.register

variable {s other : Course}

theorem Alike.step (alike : s.Alike other) (act : Act) :
    s.made act = other.made act ∧ (s.step act).Alike (other.step act) := by
  obtain ⟨clock, register⟩ := alike
  cases act with
  | connect c =>
    obtain ⟨result, after⟩ := register.connect c
    refine ⟨?_, clock, ?_⟩
    · simp only [made, clock] at result ⊢
      rw [result]
    · simp only [Course.step, clock] at after ⊢
      exact after
  | release c => exact ⟨rfl, clock, register.release c⟩
  | sweep =>
    -- each sweep is invisible in its own course
    refine ⟨rfl, clock, ?_⟩
    have here := Register.alike_sweep s.clock s.register
    have there := Register.alike_sweep s.clock other.register
    have back : other.register.Alike s.clock (other.register.sweep s.clock).1 :=
      ⟨there.limits.symm, there.opened.symm, fun user => (there.recent user).symm⟩
    simp only [Course.step, ← clock]
    exact (here.trans register).trans back
  | wait nanos =>
    refine ⟨rfl, congrArg (· + nanos) clock, ?_⟩
    exact register.later (Nat.le_add_right _ _)

/-- An act that may be left out leaves a course as it was, as far as any later act can tell. -/
theorem Alike.omit (alike : s.Alike other) {act : Act} (may : s.MayOmit act) :
    (s.step act).Alike other := by
  obtain ⟨clock, register⟩ := alike
  cases act with
  | connect c => exact ⟨clock, (Register.alike_refused may).trans register⟩
  | release c => cases may
  | sweep => exact ⟨clock, (Register.alike_sweep _ _).trans register⟩
  | wait nanos => cases may

def remaining (choices : List Choice) : List Act := (choices.filter (·.stays)).map (·.act)

theorem alike_fold {choices : List Choice} (alike : s.Alike other) (omits : s.Omits choices) :
    ((remaining choices).foldl step other).attempts = other.attempts ++ s.stayed choices ∧
      ((choices.map (·.act)).foldl step s).Alike ((remaining choices).foldl step other) := by
  -- an act that stays is made in both courses, one that is left out in the first alone
  induction choices generalizing s other with
  | nil => exact ⟨(List.append_nil _).symm, alike⟩
  | cons choice choices ih =>
    obtain ⟨act, stays⟩ := choice
    obtain ⟨may, later⟩ := omits
    cases stays with
    | true =>
      obtain ⟨same, after⟩ := alike.step act
      obtain ⟨attempts, ends⟩ := ih after later
      refine ⟨?_, ends⟩
      calc ((remaining choices).foldl step (other.step act)).attempts
          = (other.step act).attempts ++ (s.step act).stayed choices := attempts
        _ = other.attempts ++ (other.made act ++ (s.step act).stayed choices) := by
          rw [attempts_step, List.append_assoc]
        _ = other.attempts ++ s.stayed (⟨act, true⟩ :: choices) := by rw [← same]; rfl
    | false => exact ih (alike.omit (may rfl)) later

/-- Sweeps and attempts that are refused for the rate can be left out of a course, and nothing else
in it changes: what stays has the outcomes that it had, the open connections are counted alike after
every part of the course, and so no later attempt is refused that would not have been. -/
theorem omission_unnoticed (limits : Limits) (clock : Nat) {choices : List Choice}
    (omits : (start limits clock).Omits choices) :
    (run limits clock (remaining choices)).attempts = (start limits clock).stayed choices ∧
      ∀ part, part <+: choices →
        let whole := run limits clock (part.map (·.act))
        let thinned := run limits clock (remaining part)
        (∀ q, thinned.register.opened.count q = whole.register.opened.count q) ∧
          ∀ nanos c, (thinned.register.connect (thinned.clock + nanos) c).2 =
            (whole.register.connect (whole.clock + nanos) c).2 := by
  have initial : (start limits clock).Alike (start limits clock) := ⟨rfl, .refl _ _⟩
  refine ⟨(alike_fold initial omits).1, ?_⟩
  rintro part ⟨after, rfl⟩ whole thinned
  have alike : whole.Alike thinned := (alike_fold initial (omits_append omits)).2
  refine ⟨fun q => by rw [alike.register.opened], fun nanos c => ?_⟩
  obtain ⟨same, _⟩ := (alike.register.later (Nat.le_add_right whole.clock nanos)).connect c
  rw [← alike.clock]
  exact same.symm

/-- One attempt is allowed in a minute. A second one and a sweep are left out. -/
def hasty : List Choice :=
  [⟨.connect ⟨"u", none, none⟩, true⟩, ⟨.connect ⟨"u", none, some "j"⟩, false⟩, ⟨.sweep, false⟩,
    ⟨.wait (61 * Limits.nanosPerSecond), true⟩, ⟨.connect ⟨"u", none, some "j"⟩, true⟩]

theorem omission_unnoticed_hasty :
    let limits : Limits := { Limits.default with rate := 1 }
    (start limits 0).Omits hasty ∧
      (run limits 0 (remaining hasty)).attempts = (start limits 0).stayed hasty ∧
      ((start limits 0).stayed hasty).map (fun a => refusedFor .rate a.result) = [false, false] := by
  intro limits
  have omits : (start limits 0).Omits hasty :=
    ⟨nofun, fun _ => rfl, fun _ => trivial, nofun, nofun, trivial⟩
  exact ⟨omits, (omission_unnoticed limits 0 omits).1, by decide⟩

end Course

end Admission

end NotificationRelay
