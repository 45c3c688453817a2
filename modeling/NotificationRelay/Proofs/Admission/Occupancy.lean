import Mathlib.Data.List.Count
import NotificationRelay.Proofs.Admission.Course
import NotificationRelay.Proofs.Tally

/-! Open connections along a course in which nothing is released that is not open. The tally of the
register is then a tally of the open connections: nothing leaks, and nothing is lost. -/
namespace NotificationRelay

namespace Connection

def onProject? (c : Connection) : Option (String × String) :=
  c.project.bind fun project => if project = "" then none else some (c.user, project)

def onJob? (c : Connection) : Option (String × String) :=
  c.job.bind fun job => if job = "" then none else some (c.user, job)

theorem map_named? {α : Type} (id : Option String) (f : String → α) :
    (named? id).map f = id.bind fun s => if s = "" then none else some (f s) := by
  cases id with
  | none => rfl
  | some s => by_cases empty : s = "" <;> simp [named?, Option.filter, empty]

end Connection

/-- A sort of quotas. A connection has at most one of it. -/
structure QuotaSort (κ : Type) where
  is : Quota → Bool
  quota : κ → Quota
  of? : Connection → Option κ
  injective : Function.Injective quota
  is_quota : ∀ key, is (quota key)
  own : ∀ c : Connection, c.quotas.filter is = (of? c).toList.map quota

namespace QuotaSort

def byUser : QuotaSort String where
  is
    | .user _ => true
    | _ => false
  quota := .user
  of? c := some c.user
  injective _ _ same := Quota.user.inj same
  is_quota _ := rfl
  own c := by
    unfold Connection.quotas
    cases Connection.named? c.project <;> cases Connection.named? c.job <;> rfl

def byProject : QuotaSort (String × String) where
  is
    | .project .. => true
    | _ => false
  quota pair := .project pair.1 pair.2
  of? := Connection.onProject?
  injective _ _ same := Prod.ext (Quota.project.inj same).1 (Quota.project.inj same).2
  is_quota _ := rfl
  own c := by
    rw [Connection.onProject?, ← Connection.map_named?]
    unfold Connection.quotas
    cases Connection.named? c.project <;> cases Connection.named? c.job <;> rfl

def byJob : QuotaSort (String × String) where
  is
    | .job .. => true
    | _ => false
  quota pair := .job pair.1 pair.2
  of? := Connection.onJob?
  injective _ _ same := Prod.ext (Quota.job.inj same).1 (Quota.job.inj same).2
  is_quota _ := rfl
  own c := by
    rw [Connection.onJob?, ← Connection.map_named?]
    unfold Connection.quotas
    cases Connection.named? c.project <;> cases Connection.named? c.job <;> rfl

/-- What connections count against, sort by sort. -/
theorem filter_quotas {κ : Type} (sort : QuotaSort κ) (held : List Connection) :
    (held.flatMap Connection.quotas).filter sort.is = (held.filterMap sort.of?).map sort.quota := by
  induction held with
  | nil => rfl
  | cons c rest ih =>
    rw [List.flatMap_cons, List.filter_append, sort.own, ih, List.filterMap_cons]
    cases sort.of? c <;> rfl

theorem filterMap_byUser (held : List Connection) :
    held.filterMap byUser.of? = held.map (·.user) := congrFun List.filterMap_eq_map held

end QuotaSort

namespace Register

def Tells (r : Register) (held : List Connection) : Prop :=
  r.opened.Counts (held.flatMap Connection.quotas)

namespace Tells

variable {r : Register} {held : List Connection} {κ : Type}

theorem count [BEq κ] [LawfulBEq κ] (tells : r.Tells held) (sort : QuotaSort κ) (key : κ) :
    r.opened.count (sort.quota key) = (held.filterMap sort.of?).count key := by
  rw [tells.exactly, ← List.count_filter (sort.is_quota key), sort.filter_quotas]
  exact List.count_map_of_injective _ _ sort.injective key

theorem distinct [DecidableEq κ] (tells : r.Tells held) (sort : QuotaSort κ) :
    (r.opened.entries.filter fun entry => sort.is entry.1).length =
      (held.filterMap sort.of?).dedup.length := by
  rw [tells.length_entries, sort.filter_quotas, List.dedup_map_of_injective sort.injective,
    List.length_map]

theorem users (tells : r.Tells held) : r.stats.users = (held.map (·.user)).dedup.length := by
  rw [← QuotaSort.filterMap_byUser]
  exact tells.distinct .byUser

theorem connections (tells : r.Tells held) : r.stats.connections = held.length := by
  refine (tells.total_entries QuotaSort.byUser.is).trans ?_
  rw [QuotaSort.filter_quotas, List.length_map, QuotaSort.filterMap_byUser, List.length_map]

end Tells

theorem tells_make (limits : Limits) : (make limits).Tells [] := Tally.counts_empty

variable {r : Register} {held : List Connection}

theorem Tells.of_opened {r' : Register} (tells : r.Tells held) (same : r'.opened = r.opened) :
    r'.Tells held := by
  unfold Tells
  rw [same]
  exact tells

theorem Tells.enter (tells : r.Tells held) (c : Connection) : (r.enter c).Tells (c :: held) :=
  Tally.Counts.addAll tells c.quotas (.refl _)

/-- A connection that is opened is counted, and one that is refused is not. -/
theorem Tells.connect (tells : r.Tells held) (now : Nat) (c : Connection) :
    (r.connect now c).1.Tells (if (r.connect now c).2 = .ok () then c :: held else held) := by
  obtain ⟨_, same⟩ | ⟨_, _, _, same⟩ | ⟨_, _, same⟩ := r.connect_cases now c
  · rw [same, if_neg (by simp)]
    exact tells.of_opened rfl
  · rw [same, if_neg (by simp)]
    exact tells.of_opened rfl
  · rw [same, if_pos rfl]
    exact (tells.enter c).of_opened rfl

theorem Tells.release (tells : r.Tells held) {c : Connection} {after : List Connection}
    (fewer : held.Perm (c :: after)) : (r.release c).1.Tells after :=
  Tally.Counts.dropAll tells c.quotas (fewer.flatMap_right _)

end Register

namespace Admission

/-- A course with the connections that are open in it, latest first. -/
structure Occupancy where
  course : Course
  held : List Connection

namespace Occupancy

def start (limits : Limits) (clock : Nat) : Occupancy := ⟨.start limits clock, []⟩

/-- The next act, unless it releases a connection that is not open. -/
def step? (s : Occupancy) (act : Act) : Option Occupancy :=
  let course := s.course.step act
  match act with
  | .connect c =>
    let result := (s.course.register.connect s.course.clock c).2
    some ⟨course, if result = .ok () then c :: s.held else s.held⟩
  | .release c => if c ∈ s.held then some ⟨course, s.held.erase c⟩ else none
  | .sweep | .wait _ => some ⟨course, s.held⟩

theorem tells_step {s next : Occupancy} {act : Act} (tells : s.course.register.Tells s.held)
    (taken : s.step? act = some next) : next.course.register.Tells next.held := by
  cases act with
  | connect c =>
    cases taken
    exact tells.connect s.course.clock c
  | release c =>
    simp only [step?] at taken
    split at taken
    · rename_i there
      cases taken
      exact tells.release (List.perm_cons_erase there)
    · cases taken
  | sweep =>
    cases taken
    exact tells.of_opened rfl
  | wait nanos =>
    cases taken
    exact tells

theorem tells_run {acts : List Act} {s final : Occupancy} (tells : s.course.register.Tells s.held)
    (ran : acts.foldlM step? s = some final) : final.course.register.Tells final.held := by
  induction acts generalizing s with
  | nil =>
    cases ran
    exact tells
  | cons act rest ih =>
    rw [List.foldlM_cons] at ran
    obtain ⟨next, taken, ran⟩ := Option.bind_eq_some_iff.mp ran
    exact ih (tells_step tells taken) ran

/-- As long as nothing is released that is not open, the numbers of a register are those of the open
connections: by user, by project and by job, in its statistics, and none at all once all are
released. -/
theorem counts_exact (limits : Limits) (clock : Nat) {acts : List Act} {s : Occupancy}
    (ran : acts.foldlM step? (start limits clock) = some s) :
    let r := s.course.register
    (∀ user, r.opened.count (.user user) = (s.held.map (·.user)).count user) ∧
      (∀ user project, r.opened.count (.project user project) =
        (s.held.filterMap Connection.onProject?).count (user, project)) ∧
      (∀ user job, r.opened.count (.job user job) =
        (s.held.filterMap Connection.onJob?).count (user, job)) ∧
      r.stats.users = (s.held.map (·.user)).dedup.length ∧
      r.stats.connections = s.held.length ∧
      r.stats.projects = (s.held.filterMap Connection.onProject?).dedup.length ∧
      r.stats.jobs = (s.held.filterMap Connection.onJob?).dedup.length ∧
      (s.held = [] → r.opened.entries = []) := by
  intro r
  have tells : r.Tells s.held := tells_run (Register.tells_make limits) ran
  refine ⟨fun user => ?_, fun user project => tells.count .byProject (user, project),
    fun user job => tells.count .byJob (user, job), tells.users, tells.connections,
    tells.distinct .byProject, tells.distinct .byJob, fun none => ?_⟩
  · rw [← QuotaSort.filterMap_byUser]
    exact tells.count .byUser user
  · rw [none] at tells
    exact Tally.Counts.entries_nil tells

/-- Two connections share a user and a project, two a job; the first one is released. -/
def sharing : List Act :=
  [.connect ⟨"u", some "p", some ""⟩, .connect ⟨"u", some "p", some "j"⟩,
    .connect ⟨"v", none, some "j"⟩, .wait 5, .sweep, .release ⟨"u", some "p", some ""⟩]

theorem counts_exact_sharing :
    ∃ s, sharing.foldlM step? (start .default 0) = some s ∧
      s.held = [⟨"v", none, some "j"⟩, ⟨"u", some "p", some "j"⟩] ∧
      s.course.register.opened.count (.project "u" "p") = 1 ∧
      s.course.register.stats.users = 2 ∧ s.course.register.stats.projects = 1 := by
  refine ⟨_, rfl, rfl, ?_⟩
  obtain ⟨_, project, _, users, _, projects, _⟩ :=
    counts_exact .default 0 (show sharing.foldlM step? (start .default 0) = some _ from rfl)
  exact ⟨project "u" "p", users, projects⟩

end Occupancy

end Admission

end NotificationRelay
