import NotificationRelay.Failure.Basic
import NotificationRelay.Proofs.Result
import NotificationRelay.Proofs.Text.Phrase
import NotificationRelay.Topic

/-! Why a channel is no topic, and what is said of it. A refusal counts the parts of the channel, or
finds fault with an identifier, of which it shows one character at most; only a kind that is none is
quoted as it stands. -/
namespace NotificationRelay

open Text

theorem Text.mem_toDigits {base n : Nat} (several : 1 < base) {c : Char}
    (among : c ∈ Nat.toDigits base n) : ∃ digit, c = Nat.digitChar digit := by
  induction n using Nat.strongRecOn with
  | ind n ih =>
    rw [Nat.toDigits_eq_if several] at among
    split at among
    · exact ⟨n, List.mem_singleton.mp among⟩
    · rename_i large
      rcases List.mem_append.mp among with high | low
      · exact ih (n / base) (Nat.div_lt_self (by omega) several) high
      · exact ⟨n % base, List.mem_singleton.mp low⟩

/-- A character that is quoted brings no blank along. -/
theorem Text.blankless_quotedChar {c : Char} (visible : c ≠ ' ') : ' ' ∉ (quotedChar c).toList := by
  have digits : ' ' ∉ Nat.toDigits 16 c.toNat := by
    intro among
    obtain ⟨digit, same⟩ := mem_toDigits (by decide) among
    exact Nat.digitChar_ne ' ' (by decide) same.symm
  have shown : ' ' ∉ escapedIn '\'' c := by
    unfold escapedIn
    split
    · simp [Ne.symm visible]
    split
    · decide
    split
    · decide
    split
    · decide
    split
    · decide
    split
    · simp [digits]
    · simp [Ne.symm visible]
  rw [quotedChar, String.toList_ofList]
  simp [shown]

namespace Topic

/-- What a channel of three parts has in the place of a kind, if it names none. -/
def misnamed (channel : String) : String :=
  match segments channel.toList with
  | [kind, _, _] =>
    if (Vocabulary.find? (String.ofList kind) : Option Kind).isNone then String.ofList kind else ""
  | _ => ""

inductive Blemish : String → Prop where
  | empty : Blemish "must not be empty"
  | long (n : Nat) :
      Blemish ("length " ++ toString n ++ " exceeds " ++ toString longestId ++ " characters")
  | strange (c : Char) : Blemish ("contains invalid character " ++ quotedChar c)

inductive Defect (channel : String) : Violation → Prop where
  | parts (n : Nat) (silent : misnamed channel = "") :
      Defect channel (.topicFormat ("expected <type>:<resource_id>:<user_id>, got " ++ toString n ++
        " segment(s)"))
  | kind : Defect channel (.topicKind (misnamed channel))
  | identifier {segment reason : String} (named : segment ∈ ["resource ID", "user ID"])
      (blemish : Blemish reason) (silent : misnamed channel = "") :
      Defect channel (.identifier segment reason)

theorem checkId_failure {segment id : String} {v : Violation}
    (refused : checkId segment id = .error v) :
    ∃ reason, v = .identifier segment reason ∧ Blemish reason := by
  unfold checkId at refused
  split at refused
  · cases refused
    exact ⟨_, rfl, .empty⟩
  split at refused
  · cases refused
    exact ⟨_, rfl, .long _⟩
  split at refused
  · cases refused
    exact ⟨_, rfl, .strange _⟩
  · cases refused

theorem make_failure {kind : Kind} {resource user : String} {v : Violation}
    (refused : make kind resource user = .error v) :
    ∃ segment ∈ ["resource ID", "user ID"], ∃ reason,
      v = .identifier segment reason ∧ Blemish reason := by
  rcases bind_failure refused with first | ⟨_, _, later⟩
  · exact ⟨_, by simp, checkId_failure first⟩
  · rcases bind_failure later with second | ⟨_, _, made⟩
    · exact ⟨_, by simp, checkId_failure second⟩
    · cases made

theorem parse_failure {channel : String} {v : Violation} (rejected : parse channel = .error v) :
    Defect channel v := by
  unfold parse at rejected
  split at rejected
  · rename_i name resource user split
    cases found : (Vocabulary.find? (String.ofList name) : Option Kind) with
    | some kind =>
      have silent : misnamed channel = "" := by simp [misnamed, split, found]
      rw [found] at rejected
      obtain ⟨segment, named, reason, rfl, blemish⟩ := make_failure rejected
      exact .identifier named blemish silent
    | none =>
      have quoted : misnamed channel = String.ofList name := by simp [misnamed, split, found]
      rw [found] at rejected
      cases rejected
      rw [← quoted]
      exact .kind
  · rename_i other
    cases rejected
    refine .parts _ ?_
    unfold misnamed
    split
    · rename_i split
      exact absurd split (other _ _ _)
    · rfl

/-- A phrase that a refusal of a channel never uses of its own accord. -/
structure Unsaid (phrase : String) : Prop where
  unbroken : Unbroken phrase
  apart : ' ' ∈ phrase.toList
  wordy : ∀ c ∈ phrase.toList.head?, c.isDigit = false
  clear : ∀ part ∈ ["expected <type>:<resource_id>:<user_id>, got ", "length ",
    "contains invalid character "], Clear phrase.toList (folded part)
  silent : ∀ part ∈ ["topic validation failed", "invalid topic format", "invalid topic type",
    "invalid resource ID", "invalid user ID", "expected <type>:<resource_id>:<user_id>, got ",
    " segment(s)", "must not be empty", "length ", " exceeds 50 characters",
    "contains invalid character ", "' '"], holds phrase part = false

variable {phrase : String}

theorem Unsaid.not_holds_count (unsaid : Unsaid phrase) {before after : String}
    (clear : Clear phrase.toList (folded before)) (front : holds phrase before = false)
    (back : holds phrase after = false) (n : Nat) :
    holds phrase (before ++ toString n ++ after) = false := by
  have given : phrase ≠ "" := by
    rintro rfl
    exact absurd unsaid.apart (by decide)
  rw [String.append_assoc, holds_append clear, holds_number given unsaid.wordy, front, back]
  rfl

theorem Blemish.not_holds {reason : String} (blemish : Blemish reason) (unsaid : Unsaid phrase) :
    holds phrase reason = false := by
  cases blemish with
  | empty => exact unsaid.silent _ (by simp)
  | long n =>
    have wording : "length " ++ toString n ++ " exceeds " ++ toString longestId ++ " characters" =
        "length " ++ toString n ++ " exceeds 50 characters" := by
      rw [String.append_assoc, String.append_assoc]
      rfl
    rw [wording]
    exact unsaid.not_holds_count (unsaid.clear _ (by simp)) (unsaid.silent _ (by simp))
      (unsaid.silent _ (by simp)) n
  | strange c =>
    rw [holds_append (unsaid.clear _ (by simp)), unsaid.silent _ (by simp), Bool.false_or]
    by_cases blank : c = ' '
    · have shown : quotedChar ' ' = "' '" := by decide +kernel
      rw [blank, shown]
      exact unsaid.silent _ (by simp)
    · exact not_holds_of_blankless unsaid.apart (blankless_quotedChar blank)

/-- Only what stands in the place of a kind can bring such a phrase into a refusal. -/
theorem Defect.holds_message {channel : String} {v : Violation} (defect : Defect channel v)
    (unsaid : Unsaid phrase) :
    holds phrase (Failure.topic v).message = holds phrase (misnamed channel) := by
  have nowhere : holds phrase "" = false := not_holds_of_blankless unsaid.apart (by decide)
  have outer : holds phrase (Failure.topic v).message = holds phrase v.message := by
    have wording : (Failure.topic v).message = "topic validation failed" ++ ": " ++ v.message := rfl
    rw [wording, holds_separated unsaid.unbroken, unsaid.silent _ (by simp), Bool.false_or]
  rw [outer]
  cases defect with
  | parts n silent =>
    have wording (reason : String) : (Violation.topicFormat reason).message =
        "invalid topic format" ++ ": " ++ reason := rfl
    rw [wording, holds_separated unsaid.unbroken, unsaid.silent _ (by simp), Bool.false_or, silent,
      nowhere]
    exact unsaid.not_holds_count (unsaid.clear _ (by simp)) (unsaid.silent _ (by simp))
      (unsaid.silent _ (by simp)) n
  | kind =>
    have wording (kind : String) : (Violation.topicKind kind).message =
        "invalid topic type" ++ ": " ++ kind := rfl
    rw [wording, holds_separated unsaid.unbroken, unsaid.silent _ (by simp), Bool.false_or]
  | @identifier segment reason named blemish silent =>
    have heading : holds phrase ("invalid " ++ segment) = false := by
      rcases List.mem_cons.mp named with rfl | named
      · exact unsaid.silent "invalid resource ID" (by simp)
      · obtain rfl := List.mem_singleton.mp named
        exact unsaid.silent "invalid user ID" (by simp)
    have wording : (Violation.identifier segment reason).message =
        "invalid " ++ segment ++ ": " ++ reason := rfl
    rw [wording, holds_separated unsaid.unbroken, heading, blemish.not_holds unsaid, silent,
      nowhere]
    rfl

end Topic

end NotificationRelay
