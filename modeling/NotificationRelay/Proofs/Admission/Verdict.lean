import NotificationRelay.Proofs.Admission.Occupancy
import NotificationRelay.Proofs.Admission.Window

/-! The verdict on an attempt. An attempt is held against the limits one after another; the first one
that is used up refuses it and is named with its numbers, and if there is none the attempt succeeds.
What either leaves behind is told in full. The times at which the register has been used before need
not be in order for this. -/
namespace NotificationRelay

namespace Connection

def uses (c : Connection) : Quota → Bool
  | .user name => name = c.user
  | .project name project => name = c.user && c.project = some project && project ≠ ""
  | .job name job => name = c.user && c.job = some job && job ≠ ""

theorem named?_eq_some {id : Option String} {s : String} :
    named? id = some s ↔ id = some s ∧ s ≠ "" := by
  simp [named?, Option.filter_eq_some_iff]

theorem mem_quotas_iff (c : Connection) (q : Quota) : q ∈ c.quotas ↔ c.uses q := by
  simp only [quotas, List.cons_append, List.mem_cons, List.mem_append, Option.mem_toList,
    Option.map_eq_some_iff, named?_eq_some]
  cases q with
  | user name => simp [uses]
  | project name project =>
    simp only [uses, Bool.and_eq_true, decide_eq_true_eq]
    constructor
    · rintro (other | ⟨_, ⟨given, named⟩, same⟩ | ⟨_, _, other⟩)
      · cases other
      · cases same
        exact ⟨⟨rfl, given⟩, named⟩
      · cases other
    · rintro ⟨⟨rfl, given⟩, named⟩
      exact .inr (.inl ⟨project, ⟨given, named⟩, rfl⟩)
  | job name job =>
    simp only [uses, Bool.and_eq_true, decide_eq_true_eq]
    constructor
    · rintro (other | ⟨_, _, other⟩ | ⟨_, ⟨given, named⟩, same⟩)
      · cases other
      · cases other
      · cases same
        exact ⟨⟨rfl, given⟩, named⟩
    · rintro ⟨⟨rfl, given⟩, named⟩
      exact .inr (.inr ⟨job, ⟨given, named⟩, rfl⟩)

theorem count_quotas (c : Connection) (q : Quota) :
    c.quotas.count q = if c.uses q then 1 else 0 := by
  by_cases used : c.uses q
  · rw [if_pos used]
    exact List.count_eq_one_of_mem c.quotas_nodup ((c.mem_quotas_iff q).mpr used)
  · rw [if_neg used]
    exact List.count_eq_zero_of_not_mem fun member => used ((c.mem_quotas_iff q).mp member)

end Connection

namespace Register

/-- What an attempt is held against, in the order of the checks: each limit with what the user
already has of it. The limits for a project and for a job only concern a connection that names one. -/
def checks (r : Register) (now : Nat) (c : Connection) : List (Limit × Nat) :=
  [(.rate, (r.recent now c.user).length), (.perUser, r.opened.count (.user c.user))] ++
    (c.onProject?.map fun on => (.perUserAndProject, r.opened.count (.project on.1 on.2))).toList ++
    (c.onJob?.map fun on => (.perUserAndJob, r.opened.count (.job on.1 on.2))).toList

theorem checks_eq (r : Register) (now : Nat) (c : Connection) :
    r.checks now c = (.rate, (r.recent now c.user).length) ::
      c.quotas.map fun q => (q.limit, r.opened.count q) := by
  unfold checks Connection.onProject? Connection.onJob? Connection.quotas
  rw [← Connection.map_named?, ← Connection.map_named?]
  cases Connection.named? c.project <;> cases Connection.named? c.job <;> rfl

/-- The limit is used up, and those that are checked before it are not. -/
structure FirstUsedUp (limits : Limits) (checks : List (Limit × Nat)) (limit : Limit)
    (current : Nat) : Prop where
  reached : limits.greatest limit ≤ current
  first : ∃ passed others, checks = passed ++ (limit, current) :: others ∧
    ∀ check ∈ passed, check.2 < limits.greatest check.1

def Room (limits : Limits) (checks : List (Limit × Nat)) : Prop :=
  ∀ check ∈ checks, check.2 < limits.greatest check.1

def usedUp (limits : Limits) (check : Limit × Nat) : Bool := limits.greatest check.1 ≤ check.2

section

variable {limits : Limits} {checks : List (Limit × Nat)} {limit : Limit} {current : Nat}

theorem find?_usedUp_eq_some :
    checks.find? (usedUp limits) = some (limit, current) ↔
      FirstUsedUp limits checks limit current := by
  rw [List.find?_eq_some_iff_append]
  simp only [usedUp, decide_eq_true_eq, Bool.not_eq_true', decide_eq_false_iff_not, Nat.not_le]
  exact ⟨fun ⟨reached, first⟩ => ⟨reached, first⟩, fun ⟨reached, first⟩ => ⟨reached, first⟩⟩

theorem FirstUsedUp.unique {other : Limit} {number : Nat}
    (first : FirstUsedUp limits checks limit current)
    (also : FirstUsedUp limits checks other number) : limit = other ∧ current = number := by
  rw [← find?_usedUp_eq_some] at first also
  exact Prod.mk.inj (Option.some.inj (first.symm.trans also))

theorem find?_usedUp_eq_none : checks.find? (usedUp limits) = none ↔ Room limits checks := by
  rw [List.find?_eq_none]
  simp only [usedUp, decide_eq_true_eq, Nat.not_le, Room]

theorem FirstUsedUp.not_room (first : FirstUsedUp limits checks limit current) :
    ¬Room limits checks := by
  rw [← find?_usedUp_eq_some] at first
  rw [← find?_usedUp_eq_none, first]
  exact nofun

/-- A limit that is used up comes first if it is checked first, or if it comes first among the others
and the one before it has room. -/
theorem firstUsedUp_cons {check : Limit × Nat} :
    FirstUsedUp limits (check :: checks) limit current ↔
      (limits.greatest check.1 ≤ check.2 ∧ check = (limit, current)) ∨
        (check.2 < limits.greatest check.1 ∧ FirstUsedUp limits checks limit current) := by
  rw [← find?_usedUp_eq_some, ← find?_usedUp_eq_some, List.find?_cons]
  by_cases full : limits.greatest check.1 ≤ check.2
  · simp [usedUp, full, Nat.not_lt_of_le full]
  · simp [usedUp, full, Nat.lt_of_not_le full]

end

/-- What a refusal leaves behind: the attempt is noted unless it came too soon after others. -/
def afterRefusal (r : Register) (now : Nat) (user : String) (limit : Limit) : Register :=
  if limit = .rate then { r with attempts := r.attempts.insert user (r.recent now user) }
  else r.noted now user

inductive Verdict (r : Register) (now : Nat) (c : Connection) :
    Register × Except Refusal Unit → Prop where
  | refused {limit : Limit} {current : Nat}
      (first : FirstUsedUp r.limits (r.checks now c) limit current) :
      Verdict r now c (r.afterRefusal now c.user limit,
        .error ⟨c.user, limit, current, r.limits.greatest limit⟩)
  | admitted (room : Room r.limits (r.checks now c)) :
      Verdict r now c ((r.noted now c.user).enter c, .ok ())

/-- What refuses a connection for a quota is the first one that is used up. -/
theorem firstUsedUp_of_refusal? {r : Register} {c : Connection} {refusal : Refusal}
    (found : r.refusal? c = some refusal) :
    refusal.limit ≠ .rate ∧
      FirstUsedUp r.limits (c.quotas.map fun q => (q.limit, r.opened.count q))
        refusal.limit refusal.current ∧
      refusal = ⟨c.user, refusal.limit, refusal.current, r.limits.greatest refusal.limit⟩ := by
  obtain ⟨q, first, rfl⟩ := Option.map_eq_some_iff.mp found
  refine ⟨Admission.Quota.limit_ne_rate q, find?_usedUp_eq_some.mp ?_, rfl⟩
  rw [List.find?_map]
  exact congrArg (Option.map _) first

theorem room_of_refusal? {r : Register} {c : Connection} (free : r.refusal? c = none) :
    Room r.limits (c.quotas.map fun q => (q.limit, r.opened.count q)) := by
  intro check member
  obtain ⟨q, among, rfl⟩ := List.mem_map.mp member
  exact refusal?_none free among

theorem verdict_connect (r : Register) (now : Nat) (c : Connection) :
    Verdict r now c (r.connect now c) := by
  obtain ⟨full, same⟩ | ⟨room, refusal, found, same⟩ | ⟨room, free, same⟩ := r.connect_cases now c
  · have first : FirstUsedUp r.limits (r.checks now c) .rate (r.recent now c.user).length := by
      rw [checks_eq, firstUsedUp_cons]
      exact .inl ⟨full, rfl⟩
    have verdict := Verdict.refused first
    rw [afterRefusal, if_pos rfl] at verdict
    rw [same]
    exact verdict
  · obtain ⟨other, first, told⟩ := firstUsedUp_of_refusal? found
    have first : FirstUsedUp r.limits (r.checks now c) refusal.limit refusal.current := by
      rw [checks_eq, firstUsedUp_cons]
      exact .inr ⟨room, first⟩
    have verdict := Verdict.refused first
    rw [afterRefusal, if_neg other, ← told] at verdict
    rw [same]
    exact verdict
  · rw [same]
    refine .admitted ?_
    rw [checks_eq]
    intro check member
    rcases List.mem_cons.mp member with rfl | later
    · exact room
    · exact room_of_refusal? free check later

theorem opened_afterRefusal (r : Register) (now : Nat) (user : String) (limit : Limit) :
    (r.afterRefusal now user limit).opened = r.opened := by
  unfold afterRefusal
  split <;> rfl

theorem attemptsOf_afterRefusal (r : Register) (now : Nat) (user other : String) (limit : Limit) :
    (r.afterRefusal now user limit).attemptsOf other =
      if other = user then r.recent now user ++ if limit = .rate then [] else [now]
      else r.attemptsOf other := by
  unfold afterRefusal
  split
  · rw [attemptsOf_insert, List.append_nil]
  · exact r.attemptsOf_noted now user other

namespace Verdict

variable {r : Register} {now : Nat} {c : Connection} {out : Register × Except Refusal Unit}

theorem error_iff (verdict : Verdict r now c out) (refusal : Refusal) :
    out.2 = .error refusal ↔
      FirstUsedUp r.limits (r.checks now c) refusal.limit refusal.current ∧
        refusal.user = c.user ∧ refusal.greatest = r.limits.greatest refusal.limit := by
  cases verdict with
  | refused first =>
    constructor
    · intro told
      cases told
      exact ⟨first, rfl, rfl⟩
    · rintro ⟨also, user, greatest⟩
      obtain ⟨rfl, rfl⟩ := first.unique also
      rw [← user, ← greatest]
  | admitted room => exact ⟨nofun, fun ⟨first, _⟩ => absurd room first.not_room⟩

theorem ok_iff (verdict : Verdict r now c out) :
    out.2 = .ok () ↔ Room r.limits (r.checks now c) := by
  cases verdict with
  | refused first => exact ⟨nofun, fun room => absurd room first.not_room⟩
  | admitted room => exact ⟨fun _ => room, fun _ => rfl⟩

theorem left_of_error (verdict : Verdict r now c out) {refusal : Refusal}
    (refused : out.2 = .error refusal) :
    out.1.opened = r.opened ∧ out.1.attemptsOf c.user =
      r.recent now c.user ++ if refusal.limit = .rate then [] else [now] := by
  cases verdict with
  | @refused limit current first =>
    cases refused
    refine ⟨r.opened_afterRefusal now c.user limit, ?_⟩
    rw [attemptsOf_afterRefusal, if_pos rfl]
  | admitted room => cases refused

theorem left_of_ok (verdict : Verdict r now c out) (admitted : out.2 = .ok ()) :
    (∀ q, out.1.opened.count q = r.opened.count q + if c.uses q then 1 else 0) ∧
      out.1.attemptsOf c.user = r.recent now c.user ++ [now] := by
  cases verdict with
  | refused first => cases admitted
  | admitted room =>
    refine ⟨fun q => ?_, ?_⟩
    · rw [count_enter, c.count_quotas]
      rfl
    · rw [attemptsOf_enter, attemptsOf_noted, if_pos rfl]

theorem attemptsOf_other (verdict : Verdict r now c out) {other : String}
    (foreign : other ≠ c.user) : out.1.attemptsOf other = r.attemptsOf other := by
  cases verdict with
  | refused first => rw [attemptsOf_afterRefusal, if_neg foreign]
  | admitted room => rw [attemptsOf_enter, attemptsOf_noted, if_neg foreign]

end Verdict

open Admission in
/-- In whatever state a register is, an attempt is refused just if a limit is used up, and the
refusal names the first such limit in the order of the checks, with its numbers. A refusal changes no
count of connections, and notes the attempt unless it came too soon; an admission makes each quota of
the connection grow by one, and no other. What an attempt drops of the times of its user has left the
window, and unless the clock has gone back this is all that has left it. -/
theorem verdict_exact {limits : Limits} {r : Register} (reached : Reached limits r) (now : Nat)
    (c : Connection) :
    let after := (r.connect now c).1
    let result := (r.connect now c).2
    (∀ refusal, result = .error refusal ↔
      FirstUsedUp limits (r.checks now c) refusal.limit refusal.current ∧
        refusal.user = c.user ∧ refusal.greatest = limits.greatest refusal.limit) ∧
      (∀ refusal, result = .error refusal → after.opened = r.opened ∧
        after.attemptsOf c.user =
          r.recent now c.user ++ if refusal.limit = .rate then [] else [now]) ∧
      (result = .ok () ↔ Room limits (r.checks now c)) ∧
      (result = .ok () →
        (∀ q, after.opened.count q = r.opened.count q + if c.uses q then 1 else 0) ∧
          after.attemptsOf c.user = r.recent now c.user ++ [now]) ∧
      (∀ other, other ≠ c.user → after.attemptsOf other = r.attemptsOf other) ∧
      (∃ gone, r.attemptsOf c.user = gone ++ r.recent now c.user ∧
        ∀ time ∈ gone, limits.window < now - time) ∧
      ∀ clock acts, (Course.run limits clock acts).clock = now →
        (Course.run limits clock acts).register = r →
        r.recent now c.user = (r.attemptsOf c.user).filter fun time => now - time ≤ limits.window := by
  intro after result
  have verdict : Verdict r now c (after, result) := r.verdict_connect now c
  have errors := verdict.error_iff
  have accepts := verdict.ok_iff
  have dropped := r.queue_eq_append_recent now c.user
  rw [reached.limits_eq] at errors accepts dropped
  refine ⟨errors, fun refusal refused => verdict.left_of_error refused, accepts,
    verdict.left_of_ok, fun other foreign => verdict.attemptsOf_other foreign, dropped, ?_⟩
  rintro clock acts rfl rfl
  have recent := (Course.faithful_run limits clock acts).recent_eq_filter c.user
  rw [Course.limits_run] at recent
  exact recent

/-- Both the limit for the user and the one for the project are used up: the former is named. -/
theorem verdict_exact_crowded :
    let limits := { Limits.default with perUser := 1, perUserAndProject := 1 }
    let c : Connection := ⟨"u", some "p", some ""⟩
    let r := ((Register.make limits).connect 0 c).1
    Reached limits r ∧ (r.connect 5 c).2 = .error ⟨"u", .perUser, 1, 1⟩ ∧
      (r.connect 5 c).1.opened = r.opened ∧ (r.connect 5 c).1.attemptsOf "u" = [0, 5] := by
  intro limits c r
  have reached : Reached limits r := .connect .make 0 c
  obtain ⟨refused, untouched, _⟩ := verdict_exact reached 5 c
  have first : FirstUsedUp limits (r.checks 5 c) .perUser 1 :=
    ⟨by decide, [(.rate, 1)], [(.perUserAndProject, 1)], rfl, by decide⟩
  have told : (r.connect 5 c).2 = .error ⟨"u", .perUser, 1, 1⟩ :=
    (refused ⟨"u", .perUser, 1, 1⟩).mpr ⟨first, rfl, rfl⟩
  obtain ⟨opened, noted⟩ := untouched _ told
  exact ⟨reached, told, opened, noted⟩

end Register

end NotificationRelay
