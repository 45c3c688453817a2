import NotificationRelay.Message.Schema
import NotificationRelay.Proofs.Result
import NotificationRelay.Proofs.Text.Phrase

/-! How a payload can break its schema, and what its violation shows of it. A violation names a
place by a path without blanks; all other words that it does not always use are its detail. -/
namespace NotificationRelay

open Json

def Path.Blankless (path : Path) : Prop := ∀ name, .key name ∈ path → ' ' ∉ name.toList

namespace Path.Blankless

theorem root : Path.Blankless [] := fun _ among => nomatch among

variable {path : Path}

theorem key (blankless : path.Blankless) {name : String} (new : ' ' ∉ name.toList) :
    Path.Blankless (path ++ [.key name]) := by
  intro other among
  rcases List.mem_append.mp among with old | last
  · exact blankless other old
  · cases List.mem_singleton.mp last
    exact new

theorem index (blankless : path.Blankless) (n : Nat) : Path.Blankless (path ++ [.index n]) := by
  intro other among
  rcases List.mem_append.mp among with old | last
  · exact blankless other old
  · cases List.mem_singleton.mp last

end Path.Blankless

theorem mem_foldl_append {c : Char} {parts : List String} {start : String} :
    c ∈ (parts.foldl (· ++ ·) start).toList ↔
      c ∈ start.toList ∨ ∃ part ∈ parts, c ∈ part.toList := by
  induction parts generalizing start with
  | nil => simp
  | cons part parts ih => simp [ih, or_assoc]

theorem blank_notMem_toDigits (n : Nat) : ' ' ∉ Nat.toDigits 10 n := by
  intro among
  exact absurd (Nat.isDigit_of_mem_toDigits (by decide) (by decide) among) (by decide)

theorem Path.Blankless.toText {path : Path} (blankless : path.Blankless) :
    ' ' ∉ path.toText.toList := by
  rw [Path.toText]
  split
  · decide
  · rw [pathText, mem_foldl_append]
    rintro (blank | ⟨text, among, blank⟩)
    · exact absurd blank (by decide)
    · obtain ⟨⟨part, n⟩, place, rfl⟩ := List.mem_map.mp among
      have here := List.fst_mem_of_mem_zipIdx place
      cases part with
      | key name =>
        have none := blankless name here
        cases n with
        | zero => exact none blank
        | succ n => simp [none] at blank
      | index i =>
        have none := blank_notMem_toDigits i
        simp [none] at blank
      | unnamed =>
        cases n with
        | zero => simp at blank
        | succ n => simp at blank

namespace Violation

def detail : Violation → String
  | .status word | .platform word => word
  | .value _ reason => reason
  | .within _ inner => inner.detail
  | _ => ""

/-- What a payload can break of its schema. -/
inductive Breach : Violation → Prop where
  | missingField {path : Path} (blankless : path.Blankless) : Breach (.missingField path)
  | status (word : String) : Breach (.status word)
  | platform (word : String) : Breach (.platform word)
  | value {path : Path} (blankless : path.Blankless) (reason : String) : Breach (.value path reason)

end Violation

open Violation (Breach)

mutual

def Rule.Tidy : Rule → Prop
  | .word _ refuse => ∀ ⦃path : Path⦄, path.Blankless → ∀ value, Breach (refuse path value)
  | .object members | .objects members => members.Tidy
  | _ => True

def Members.Tidy : Members → Prop
  | .none => True
  | .cons key _ rule more => ' ' ∉ key.toList ∧ rule.Tidy ∧ more.Tidy

end

section

variable {path : Path} {v : Violation}

theorem checkThat_breach (blankless : path.Blankless) {accepted : Bool} {reason : String}
    (refused : checkThat accepted path reason = .error v) : Breach v := by
  unfold checkThat at refused
  split at refused
  · cases refused
  · cases refused
    exact .value blankless _

theorem checkTimestamp_breach (blankless : path.Blankless) {j : Json}
    (refused : checkTimestamp path j = .error v) : Breach v := by
  unfold checkTimestamp at refused
  split at refused
  · split at refused
    · cases refused
    · cases refused
      exact .value blankless _
  · cases refused
    exact .value blankless _

theorem checkTexts_breach (blankless : path.Blankless) {j : Json}
    (refused : checkTexts path j = .error v) : Breach v := by
  unfold checkTexts at refused
  split at refused
  · split at refused
    · cases refused
      exact .value (blankless.index _) _
    · cases refused
  · cases refused
    exact .value blankless _

mutual

theorem Rule.check_breach {path : Path} (blankless : path.Blankless) {v : Violation} :
    {rule : Rule} → rule.Tidy → {j : Json} → rule.check path j = .error v → Breach v
  | .text, _, _, refused => by
    rw [Rule.check] at refused
    exact checkThat_breach blankless refused
  | .name, _, j, refused => by
    cases j with
    | text s =>
      rw [Rule.check] at refused
      split at refused
      · cases refused
        exact .missingField blankless
      · cases refused
    | _ =>
      simp only [Rule.check] at refused
      cases refused
      exact .value blankless _
  | .natural, _, _, refused => by
    rw [Rule.check] at refused
    exact checkThat_breach blankless refused
  | .number, _, _, refused => by
    rw [Rule.check] at refused
    exact checkThat_breach blankless refused
  | .flag, _, _, refused => by
    rw [Rule.check] at refused
    exact checkThat_breach blankless refused
  | .timestamp, _, _, refused => by
    rw [Rule.check] at refused
    exact checkTimestamp_breach blankless refused
  | .texts, _, _, refused => by
    rw [Rule.check] at refused
    exact checkTexts_breach blankless refused
  | .word words refuse, tidy, j, refused => by
    have breach := tidy blankless j
    cases j with
    | text s =>
      rw [Rule.check] at refused
      split at refused
      · cases refused
      · cases refused
        exact breach
    | _ =>
      simp only [Rule.check] at refused
      cases refused
      exact breach
  | .object members, tidy, j, refused => by
    rw [Rule.check] at refused
    exact members.checkObject_breach blankless tidy refused
  | .objects members, tidy, j, refused => by
    cases j with
    | list items =>
      rw [Rule.check] at refused
      obtain ⟨⟨item, i⟩, _, refused⟩ := forM_failure refused
      exact members.checkObject_breach (blankless.index i) tidy refused
    | _ =>
      simp only [Rule.check] at refused
      cases refused
      exact .value blankless _

theorem Members.checkObject_breach {path : Path} (blankless : path.Blankless) {v : Violation} :
    (rules : Members) → rules.Tidy → {j : Json} → rules.checkObject path j = .error v → Breach v
  | rules, tidy, j, refused => by
    cases j with
    | object members =>
      rw [Members.checkObject] at refused
      exact rules.check_breach blankless tidy refused
    | _ =>
      simp only [Members.checkObject] at refused
      cases refused
      exact .value blankless _

theorem Members.check_breach {path : Path} (blankless : path.Blankless) {v : Violation} :
    (rules : Members) → rules.Tidy → {members : List (String × Json)} →
      rules.check path members = .error v → Breach v
  | .none, _, _, refused => by
    rw [Members.check] at refused
    cases refused
  | .cons key required rule more, ⟨new, tidy, others⟩, members, refused => by
    rw [Members.check] at refused
    split at refused
    · rcases bind_failure refused with here | ⟨_, _, later⟩
      · exact rule.check_breach (blankless.key new) tidy here
      · exact more.check_breach blankless others later
    · split at refused
      · cases refused
        exact .missingField (blankless.key new)
      · exact more.check_breach blankless others refused

end

end

namespace Schema

theorem refuseStatus_breach ⦃path : Path⦄ (_ : path.Blankless) (j : Json) :
    Breach (refuseStatus path j) := by
  cases j <;> exact .status _

theorem refusePlatform_breach ⦃path : Path⦄ (_ : path.Blankless) (j : Json) :
    Breach (refusePlatform path j) := by
  cases j <;> exact .platform _

theorem refusePhaseStatus_breach ⦃path : Path⦄ (blankless : path.Blankless) (j : Json) :
    Breach (refusePhaseStatus path j) := by
  cases j with
  | text s => exact .status s
  | _ => exact .value blankless _

theorem refuseEvent_breach ⦃path : Path⦄ (blankless : path.Blankless) (j : Json) :
    Breach (refuseEvent path j) := by
  cases j <;> exact .value blankless _

theorem tidy_progress : progress.Tidy := by
  simp +decide [progress, Members.optional, Members.Tidy, Rule.Tidy]

theorem tidy_project : project.Tidy :=
  ⟨by decide, refuseStatus_breach, by decide, tidy_progress, trivial⟩

theorem tidy_phaseProgress : phaseProgress.Tidy := by
  simp +decide [phaseProgress, Members.optional, Members.Tidy, Rule.Tidy]

theorem tidy_phasePayload : phasePayload.Tidy :=
  ⟨by decide, trivial, by decide, refusePhaseStatus_breach, by decide, tidy_phaseProgress,
    by decide, tidy_phaseProgress, by decide, trivial, trivial⟩

theorem tidy_projectPhase : projectPhase.Tidy :=
  ⟨by decide, refuseEvent_breach, by decide, tidy_phasePayload, trivial⟩

theorem tidy_batch : batch.Tidy := by
  simp +decide [batch, content, author, reach, media, Members.optional, Members.required,
    Members.Tidy, Rule.Tidy]

theorem tidy_job : job.Tidy :=
  ⟨by decide, refusePlatform_breach, by decide, refuseStatus_breach, by decide, tidy_progress,
    by decide, tidy_batch, trivial⟩

end Schema

namespace Payload

theorem members_failure {payload : Bytes} {v : Violation}
    (refused : Payload.members payload = .error v) : (∃ reason, v = .json reason) ∨ Breach v := by
  unfold Payload.members at refused
  split at refused
  · cases refused
  · cases refused
    exact .inr (.value .root _)
  · cases refused
    exact .inl ⟨_, rfl⟩

theorem inLayer_failure {α : Type} {layer : String} {result : Except Violation α} {v : Violation}
    (refused : inLayer layer result = .error v) :
    ∃ inner, result = .error inner ∧ v = .within layer inner := by
  cases result with
  | error inner => exact ⟨inner, rfl, (Except.error.inj refused).symm⟩
  | ok _ => cases refused

theorem checkProject_breach {payload : Bytes} {v : Violation}
    (refused : checkProject payload = .error v) :
    ∃ inner, v = .within "project input" inner ∧
      ((∃ reason, inner = .json reason) ∨ Breach inner) := by
  obtain ⟨inner, fails, rfl⟩ := inLayer_failure refused
  refine ⟨inner, rfl, ?_⟩
  rcases bind_failure fails with unread | ⟨members, _, fails⟩
  · exact members_failure unread
  rcases bind_failure fails with broken | ⟨_, _, done⟩
  · rw [checkProjectMembers] at broken
    cases layout : Payload.layout members with
    | flat =>
      rw [layout] at broken
      exact .inr (Members.check_breach .root _ Schema.tidy_project broken)
    | phased =>
      rw [layout] at broken
      exact .inr (Members.check_breach .root _ Schema.tidy_projectPhase broken)
  · cases done

theorem checkJob_breach {payload : Bytes} {v : Violation} (refused : checkJob payload = .error v) :
    ∃ inner, v = .within "job input" inner ∧
      ((∃ reason, inner = .json reason) ∨ Breach inner) := by
  obtain ⟨inner, fails, rfl⟩ := inLayer_failure refused
  refine ⟨inner, rfl, ?_⟩
  rcases bind_failure fails with unread | ⟨members, _, broken⟩
  · exact members_failure unread
  · exact .inr (Members.check_breach .root _ Schema.tidy_job broken)

end Payload

end NotificationRelay
