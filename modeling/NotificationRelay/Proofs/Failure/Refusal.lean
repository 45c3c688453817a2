import NotificationRelay.Failure.Chain
import NotificationRelay.Proofs.Admission.Verdict
import NotificationRelay.Proofs.Failure.Retry
import NotificationRelay.Proofs.Topic.Grammar

/-! The category of a refused connection. Its wording says what it is, but it quotes the name of the
user, and other words in that name are found first; so a user can be named such that a refusal counts
as a failure of another kind. -/
namespace NotificationRelay

open Text Category

namespace Refusal

def foreignPhrases : List String := "validation" :: "output validation" :: "transform" :: inputPhrases

/-- A rule before the one for refusals applies just where one of its phrases stands. The rule that
other words can switch off leaves the matter to the one for these words. -/
theorem early_iff {message : String} : (∃ rule ∈ rules.take 8, rule.applies message) ↔
    ∃ phrase ∈ foreignPhrases, holds phrase message := by
  have early : (∃ rule ∈ rules.take 8, rule.applies message) ↔ BlamesInput message ∨
      holds "output validation" message ∨ holds "transform" message := by
    have split : rules.take 8 = inputRules ++
        [⟨"output validation", none, .outputValidation⟩, ⟨"transform", none, .transform⟩] := rfl
    rw [split, BlamesInput]
    simp [or_and_right, exists_or, Category.Rule.applies]
  rw [early, blamesInput_iff, foreignPhrases, List.exists_mem_cons_iff, List.exists_mem_cons_iff,
    List.exists_mem_cons_iff]
  cases holds "output validation" message <;> simp [or_comm, or_left_comm]

/-- A phrase that a refusal never uses of its own accord. -/
structure Unsaid (phrase : String) : Prop where
  unbroken : Unbroken phrase
  given : phrase ≠ ""
  wordy : ∀ c ∈ phrase.toList.head?, c.isDigit = false
  clear : ∀ part ∈ "rate limit exceeded for user " :: "/" ::
    (Vocabulary.words Limit).map (· ++ " ("), Clear phrase.toList (folded part)
  silent : ∀ part ∈ "rate limit exceeded for user " :: "/" :: ")" ::
    (Vocabulary.words Limit).map (· ++ " ("), holds phrase part = false

variable {phrase : String}

theorem unsaid_of_mem (among : phrase ∈ foreignPhrases) : Unsaid phrase := by
  simp only [foreignPhrases, inputPhrases, List.mem_cons, List.not_mem_nil, or_false] at among
  rcases among with rfl | rfl | rfl | rfl | rfl | rfl | rfl | rfl <;>
    exact ⟨⟨by decide, by decide⟩, by decide, by simp, by decide, by decide⟩

/-- Only the name of the user can bring such a phrase into a refusal. -/
theorem holds_message (r : Refusal) (unsaid : Unsaid phrase) :
    holds phrase r.message = holds phrase r.user := by
  have begins : holds phrase ("rate limit exceeded for user " ++ r.user) = holds phrase r.user := by
    rw [holds_append (unsaid.clear _ (by simp)), unsaid.silent _ (by simp), Bool.false_or]
  have limit : Vocabulary.word r.limit ++ " (" ∈ (Vocabulary.words Limit).map (· ++ " (") := by
    cases r.limit <;> decide
  have numbers : holds phrase (toString r.current ++ ("/" ++ (toString r.greatest ++ ")"))) =
      false := by
    rw [holds_number unsaid.given unsaid.wordy, holds_append (unsaid.clear _ (by simp)),
      unsaid.silent _ (by simp), holds_number unsaid.given unsaid.wordy,
      unsaid.silent _ (by simp), Bool.false_or]
  have ends : holds phrase (Vocabulary.word r.limit ++ " (" ++
      (toString r.current ++ ("/" ++ (toString r.greatest ++ ")")))) = false := by
    rw [holds_append (unsaid.clear _ (by simp [limit])), unsaid.silent _ (by simp [limit]), numbers,
      Bool.false_or]
  have wording : r.message = "rate limit exceeded for user " ++ r.user ++ ": " ++
      (Vocabulary.word r.limit ++ " (" ++
        (toString r.current ++ ("/" ++ (toString r.greatest ++ ")")))) := by
    have regrouped (a b c d e f g h i : String) : a ++ b ++ c ++ d ++ e ++ f ++ g ++ h ++ i =
        a ++ b ++ c ++ (d ++ e ++ (f ++ (g ++ (h ++ i)))) := by
      simp only [String.append_assoc]
    exact regrouped ..
  rw [wording, holds_separated unsaid.unbroken, begins, ends, Bool.or_false]

/-- The rules that come first see the same in a refusal as in the name of the user. -/
theorem applies_message (r : Refusal) {rule : Category.Rule} (among : rule ∈ rules.take 8) :
    rule.applies r.message = rule.applies r.user := by
  have known : ∀ rule ∈ rules.take 8, ∀ phrase ∈ rule.phrase :: rule.without.toList,
      phrase ∈ foreignPhrases := by decide
  have same {phrase : String} (sought : phrase ∈ rule.phrase :: rule.without.toList) :
      holds phrase r.message = holds phrase r.user :=
    r.holds_message (unsaid_of_mem (known rule among phrase sought))
  have without : rule.without.any (fun phrase => holds phrase r.message) =
      rule.without.any fun phrase => holds phrase r.user := by
    cases except : rule.without with
    | none => rw [Option.any_none, Option.any_none]
    | some other =>
      rw [Option.any_some, Option.any_some]
      exact same (List.mem_cons_of_mem _ (by simp [except]))
  rw [Category.Rule.applies, Category.Rule.applies, same List.mem_cons_self, without]

theorem holds_rateLimit (r : Refusal) : holds "rate limit" r.message := by
  have begins : holds "rate limit" "rate limit exceeded for user " := by decide
  unfold message
  iterate 8 apply holds_left
  exact begins

/-- A refusal falls into the category that the name of the user would have as an error of its own.
Only a name that sounds like none leaves the refusal what it is. -/
theorem category_eq (r : Refusal) : (Trouble.refusal r).category =
    if ofMessage r.user = .unknown then .rateLimitExceeded else ofMessage r.user := by
  -- the first eight rules see the name, what they leave falls to the words of the refusal itself
  have whole (message : String) : rules.find? (·.applies message) =
      ((rules.take 8).find? (·.applies message)).or ((rules.drop 8).find? (·.applies message)) := by
    rw [← List.find?_append, List.take_append_drop]
  have first : (rules.take 8).find? (·.applies r.message) =
      (rules.take 8).find? (·.applies r.user) :=
    List.find?_congr fun rule among => r.applies_message among
  have last : (rules.drop 8).find? (·.applies r.message) =
      some ⟨"rate limit", none, .rateLimitExceeded⟩ := by
    simp [rules, Category.Rule.applies, r.holds_rateLimit]
  rw [Trouble.category, Trouble.message, ofMessage, ofMessage, whole, whole, first, last]
  cases found : (rules.take 8).find? (·.applies r.user) with
  | some rule =>
    have named : ∀ rule ∈ rules.take 8, rule.category ≠ .unknown := by decide
    have known := named rule (List.mem_of_find?_eq_some found)
    simp [known]
  | none =>
    have final : ∀ rule ∈ rules.drop 8, rule.category = .rateLimitExceeded := by decide
    cases named : (rules.drop 8).find? (·.applies r.user) with
    | none => simp
    | some rule =>
      have known := final rule (List.mem_of_find?_eq_some named)
      simp [known]

theorem category_eq_rateLimitExceeded (r : Refusal) :
    (Trouble.refusal r).category = .rateLimitExceeded ↔
      ∀ phrase ∈ foreignPhrases, ¬holds phrase r.user := by
  have spared := @early_iff r.user
  by_cases early : ∃ rule ∈ rules.take 8, rule.applies r.user
  · have foreign := spared.mp early
    obtain ⟨rule, among, applies⟩ := early
    have decided := ofMessage_mem_take among applies
    refine iff_of_false (fun same => ?_) fun none => ?_
    · rw [r.category_eq] at same
      generalize ofMessage r.user = category at decided same
      revert category
      decide
    · obtain ⟨phrase, sought, held⟩ := foreign
      exact none phrase sought held
  · have decided : ofMessage r.user ∈ .unknown :: (rules.drop 8).map (·.category) := by
      refine ofMessage_mem_drop fun rule among => ?_
      exact Bool.eq_false_iff.mpr fun applies => early ⟨rule, among, applies⟩
    refine iff_of_true ?_ fun phrase sought held => early (spared.mpr ⟨phrase, sought, held⟩)
    rw [r.category_eq]
    generalize ofMessage r.user = category at decided
    revert category
    decide

theorem isRetryable_category (r : Refusal) :
    (Trouble.refusal r).category.isRetryable ↔
      (holds "validation" r.user → holds "output validation" r.user) ∧
        ∀ phrase ∈ inputPhrases, ¬holds phrase r.user := by
  have same : (Trouble.refusal r).category.isRetryable = (ofMessage r.user).isRetryable := by
    rw [r.category_eq]
    split
    · rename_i unknown
      rw [unknown]
      rfl
    · rfl
  rw [same, isRetryable_iff, blamesInput_iff]
  simp

/-- An identifier is one word, so it holds none of the phrases that are several. -/
theorem not_holds_of_isId {id : String} (valid : Topic.IsId id) (apart : ' ' ∈ phrase.toList) :
    holds phrase id = false := by
  refine not_holds_of_blankless apart fun blank => ?_
  have plain := (Topic.isIdChar_iff ' ').mpr (valid.plain ' ' blank)
  exact absurd plain (by decide)

theorem foreignPhrases_isId {id : String} (valid : Topic.IsId id) :
    (∀ phrase ∈ foreignPhrases, ¬holds phrase id) ↔
      ¬holds "validation" id ∧ ¬holds "transform" id := by
  have several {phrase : String} (apart : ' ' ∈ phrase.toList) : ¬holds phrase id :=
    Bool.eq_false_iff.mp (not_holds_of_isId valid apart)
  constructor
  · intro none
    exact ⟨none "validation" (by simp [foreignPhrases]), none "transform" (by simp [foreignPhrases])⟩
  · rintro ⟨validation, transform⟩ phrase sought
    have words : ∀ phrase ∈ foreignPhrases,
        phrase = "validation" ∨ phrase = "transform" ∨ ' ' ∈ phrase.toList := by decide
    obtain rfl | rfl | apart := words phrase sought
    · exact validation
    · exact transform
    · exact several apart

end Refusal

namespace Register

/-- Whatever state a register is in, a connection that it refuses counts as refused just if the name
of its user holds none of the phrases by which failures of other kinds are known, and as worth a
retry just if that name does not sound like bad input. An identifier is one word, so two such words
are left: `validation`, which rules out both, and `transform`, which leaves the retry. -/
theorem refusal_category_exactly {r : Register} {now : Nat} {c : Connection} {refusal : Refusal}
    (refused : (r.connect now c).2 = .error refusal) :
    let category := (Trouble.refusal refusal).category
    let named (phrase : String) : Prop := holds phrase c.user
    category = (if ofMessage c.user = .unknown then .rateLimitExceeded else ofMessage c.user) ∧
      (category = .rateLimitExceeded ↔ ∀ phrase ∈ Refusal.foreignPhrases, ¬named phrase) ∧
      (category.isRetryable ↔ (named "validation" → named "output validation") ∧
        ∀ phrase ∈ inputPhrases, ¬named phrase) ∧
      (Topic.IsId c.user →
        (category = .rateLimitExceeded ↔ ¬named "validation" ∧ ¬named "transform") ∧
          (category.isRetryable ↔ ¬named "validation")) := by
  intro category named
  obtain ⟨_, user, _⟩ := ((r.verdict_connect now c).error_iff refusal).mp refused
  have decided := refusal.category_eq
  have recognized := refusal.category_eq_rateLimitExceeded
  have retried := refusal.isRetryable_category
  rw [user] at decided recognized retried
  refine ⟨decided, recognized, retried, fun valid => ⟨?_, retried.trans ?_⟩⟩
  · exact recognized.trans (Refusal.foreignPhrases_isId valid)
  -- of the phrases that matter for a retry, `validation` is the one without a blank
  · have several : ∀ phrase ∈ "output validation" :: inputPhrases, ' ' ∈ phrase.toList := by decide
    have absent {phrase : String} (sought : phrase ∈ "output validation" :: inputPhrases) :
        ¬holds phrase c.user :=
      Bool.eq_false_iff.mp (Refusal.not_holds_of_isId valid (several phrase sought))
    constructor
    · exact fun ⟨output, _⟩ validation => absent List.mem_cons_self (output validation)
    · exact fun other => ⟨fun validation => absurd validation other,
        fun phrase sought => absent (List.mem_cons_of_mem _ sought)⟩

/-- A user with a valid name, who has used up the rate of new connections. -/
theorem refusal_category_exactly_unlucky :
    let c : Connection := ⟨"validation", none, none⟩
    let r := ((make { Limits.default with rate := 1 }).connect 0 c).1
    Topic.IsId c.user ∧ ∃ refusal, (r.connect 0 c).2 = .error refusal ∧
      (Trouble.refusal refusal).category ≠ .rateLimitExceeded ∧
      (Trouble.refusal refusal).category.isRetryable = false := by
  intro c r
  have valid : Topic.IsId c.user := (Topic.checkId_eq_ok_iff "user ID" "validation").mp (by decide)
  have refused : (r.connect 0 c).2 = .error ⟨"validation", .rate, 1, 1⟩ := by decide
  obtain ⟨_, _, _, named⟩ := refusal_category_exactly refused
  obtain ⟨recognized, retried⟩ := named valid
  have sounds : holds "validation" c.user := by decide
  refine ⟨valid, _, refused, fun same => (recognized.mp same).1 sounds, ?_⟩
  exact Bool.eq_false_iff.mpr fun retryable => retried.mp retryable sounds

end Register

end NotificationRelay
