import Mathlib.Data.List.Infix
import NotificationRelay.Text.Phrase

/-! Which of its parts holds a phrase that a text holds. -/
namespace NotificationRelay.Text

theorem mentions_iff {phrase text : List Char} : mentions phrase text ↔ phrase <:+: text := by
  induction text with
  | nil => simp [mentions]
  | cons c rest ih =>
    rw [mentions, Bool.or_eq_true, List.isPrefixOf_iff_prefix, ih, List.infix_cons_iff]

/-- No end of the text begins the phrase, so none of it reaches into what comes behind. -/
def Clear (phrase text : List Char) : Prop := ∀ rest ∈ text.tails, rest <+: phrase → rest = []

instance (phrase text : List Char) : Decidable (Clear phrase text) :=
  inferInstanceAs (Decidable (∀ _ ∈ _, _))

theorem clear_of_head {phrase text : List Char} (absent : ∀ c ∈ phrase.head?, c ∉ text) :
    Clear phrase text := by
  intro rest tail front
  cases rest with
  | nil => rfl
  | cons c rest =>
    obtain ⟨more, rfl⟩ := front
    have inside := ((List.mem_tails _ _).mp tail).subset List.mem_cons_self
    exact absurd inside (absent c rfl)

theorem infix_append {phrase a : List Char} (clear : Clear phrase a) (b : List Char) :
    phrase <:+: a ++ b ↔ phrase <:+: a ∨ phrase <:+: b := by
  induction a with
  | nil =>
    rw [List.nil_append, List.infix_nil]
    refine ⟨.inr, ?_⟩
    rintro (rfl | inside)
    · exact List.nil_infix
    · exact inside
  | cons c a ih =>
    rw [Clear, List.tails, List.forall_mem_cons] at clear
    obtain ⟨whole, clear⟩ := clear
    -- a phrase at the front that is longer than the text would begin with all of it
    have front : phrase <+: c :: a ++ b ↔ phrase <+: c :: a := by
      refine ⟨fun long => ?_, fun short => short.trans (List.prefix_append ..)⟩
      have either := List.prefix_or_prefix_of_prefix long (List.prefix_append (c :: a) b)
      rcases either with short | longer
      · exact short
      · cases whole longer
    rw [List.cons_append, List.infix_cons_iff, ← List.cons_append, front, ih clear,
      List.infix_cons_iff, or_assoc]

/-- A phrase without the separator lies on one side of it. -/
theorem infix_separated {phrase : List Char} {c : Char} (absent : c ∉ phrase) (a b : List Char) :
    phrase <:+: a ++ c :: b ↔ phrase <:+: a ∨ phrase <:+: b := by
  have clear : Clear phrase (a ++ [c]) := by
    intro rest tail front
    rcases List.suffix_concat_iff.mp ((List.mem_tails _ _).mp tail) with none | ⟨more, rfl, _⟩
    · exact none
    · exact absurd (front.subset (List.mem_append_right _ List.mem_cons_self)) absent
  have ends : phrase <:+: a ++ [c] ↔ phrase <:+: a := by
    refine ⟨fun long => ?_, fun short => short.trans (List.prefix_append ..).isInfix⟩
    rcases List.infix_concat_iff.mp long with tail | inside
    · rcases List.suffix_concat_iff.mp tail with rfl | ⟨more, rfl, _⟩
      · exact List.nil_infix
      · exact absurd (List.mem_append_right _ List.mem_cons_self) absent
    · exact inside
  rw [List.append_cons, infix_append clear, ends]

abbrev folded (text : String) : List Char := text.toList.flatMap lowered

theorem folded_append (a b : String) : folded (a ++ b) = folded a ++ folded b := by
  rw [folded, String.toList_append, List.flatMap_append]

theorem holds_iff {phrase text : String} : holds phrase text ↔ phrase.toList <:+: folded text :=
  mentions_iff

theorem holds_left {phrase a : String} (held : holds phrase a) (b : String) :
    holds phrase (a ++ b) := by
  rw [holds_iff, folded_append]
  exact (holds_iff.mp held).trans (List.prefix_append ..).isInfix

theorem holds_right {phrase b : String} (held : holds phrase b) (a : String) :
    holds phrase (a ++ b) := by
  rw [holds_iff, folded_append]
  exact (holds_iff.mp held).trans (List.suffix_append ..).isInfix

theorem holds_append {phrase a : String} (clear : Clear phrase.toList (folded a)) (b : String) :
    holds phrase (a ++ b) = (holds phrase a || holds phrase b) := by
  rw [Bool.eq_iff_iff, Bool.or_eq_true, holds_iff, holds_iff, holds_iff, folded_append,
    infix_append clear]

structure Unbroken (phrase : String) : Prop where
  noColon : ':' ∉ phrase.toList
  noBlank : phrase.toList.head? ≠ some ' '

theorem holds_separated {phrase : String} (unbroken : Unbroken phrase) (a b : String) :
    holds phrase (a ++ ": " ++ b) = (holds phrase a || holds phrase b) := by
  have blank (text : List Char) : phrase.toList <:+: ' ' :: text ↔ phrase.toList <:+: text := by
    rw [List.infix_cons_iff]
    refine ⟨?_, .inr⟩
    rintro (front | inside)
    · rcases List.prefix_cons_iff.mp front with none | ⟨more, begins, _⟩
      · exact none ▸ List.nil_infix
      · exact absurd (by rw [begins]; rfl) unbroken.noBlank
    · exact inside
  have separator : folded ": " = [':', ' '] := by decide
  rw [Bool.eq_iff_iff, Bool.or_eq_true, holds_iff, holds_iff, holds_iff, folded_append,
    folded_append, separator, List.append_assoc, List.cons_append,
    infix_separated unbroken.noColon, List.singleton_append, blank]

theorem blank_of_mem_lowered {c : Char} (blank : ' ' ∈ lowered c) : c = ' ' := by
  unfold lowered at blank
  split at blank
  · exact absurd blank (by decide)
  split at blank
  · exact absurd blank (by decide)
  · rw [List.mem_singleton] at blank
    unfold Char.toLower at blank
    split at blank
    · rename_i upper
      have code := congrArg Char.val blank
      have low : (65 : UInt32) ≤ c.val := upper.1
      have high : c.val ≤ (90 : UInt32) := upper.2
      have blank : (32 : UInt32) = c.val + 32 := code
      rw [UInt32.le_iff_toNat_le] at low high
      have code := congrArg UInt32.toNat blank
      rw [UInt32.toNat_add] at code
      simp at low high code
      omega
    · exact blank.symm

/-- Words that stand apart are not in a text without a blank. -/
theorem not_holds_of_blankless {phrase text : String} (apart : ' ' ∈ phrase.toList)
    (blankless : ' ' ∉ text.toList) : holds phrase text = false := by
  rw [← Bool.not_eq_true, holds, mentions_iff]
  intro inside
  obtain ⟨c, among, blank⟩ := List.mem_flatMap.mp (inside.subset apart)
  exact blankless (blank_of_mem_lowered blank ▸ among)

theorem lowered_of_isDigit {c : Char} (digit : c.isDigit) : lowered c = [c] := by
  have last : c.toNat ≤ 57 := by
    simp only [Char.isDigit, Bool.and_eq_true, decide_eq_true_eq] at digit
    exact UInt32.le_iff_toNat_le.mp digit.2
  rw [lowered, if_neg (by omega), if_neg (by omega)]
  unfold Char.toLower
  split
  · rename_i upper
    have first : 65 ≤ c.toNat := UInt32.le_iff_toNat_le.mp upper.1
    omega
  · rfl

/-- A phrase that begins with no digit begins behind a number. -/
theorem holds_number {phrase : String} (given : phrase ≠ "")
    (wordy : ∀ c ∈ phrase.toList.head?, c.isDigit = false) (n : Nat) (after : String) :
    holds phrase (toString n ++ after) = holds phrase after := by
  have digits : ∀ c ∈ (toString n).toList, c.isDigit := by
    rw [Nat.toString_eq_ofList_toDigits, String.toList_ofList]
    exact fun c among => Nat.isDigit_of_mem_toDigits (by decide) (by decide) among
  have plain : ∀ c ∈ folded (toString n), c.isDigit := by
    intro c among
    obtain ⟨digit, here, same⟩ := List.mem_flatMap.mp among
    rw [lowered_of_isDigit (digits digit here), List.mem_singleton] at same
    exact same ▸ digits digit here
  have absent : ∀ c ∈ phrase.toList.head?, c ∉ folded (toString n) := by
    intro c first among
    exact Bool.false_ne_true ((wordy c first).symm.trans (plain c among))
  have silent : holds phrase (toString n) = false := by
    rw [← Bool.not_eq_true, holds_iff]
    intro inside
    cases letters : phrase.toList with
    | nil => exact given (String.toList_eq_nil_iff.mp letters)
    | cons c rest =>
      rw [letters] at absent inside
      exact absent c rfl (inside.subset List.mem_cons_self)
  rw [holds_append (clear_of_head absent), silent, Bool.false_or]

end NotificationRelay.Text
