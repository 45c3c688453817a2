import Mathlib
import NotificationRelay.Proofs.Text.Utf8
import NotificationRelay.Proofs.Topic

/-! The grammar of channels. A channel is a topic just if it is a kind and two identifiers with colons
between them. The topic is written as that channel again, and it makes no difference whether it is
read or made of its parts. -/
namespace NotificationRelay

theorem Vocabulary.word_of_find? {α : Type} [Vocabulary α] {s : String} {a : α}
    (found : find? s = some a) : word a = s := by
  unfold find? at found
  simpa using List.find?_some found

namespace Topic

def IsIdChar (c : Char) : Prop :=
  ('A' ≤ c ∧ c ≤ 'Z') ∨ ('a' ≤ c ∧ c ≤ 'z') ∨ ('0' ≤ c ∧ c ≤ '9') ∨ c = '_' ∨ c = '-'

structure IsId (id : String) : Prop where
  nonempty : 1 ≤ id.length
  short : id.length ≤ 50
  plain : ∀ c ∈ id.toList, IsIdChar c

def IsChannel (s : String) : Prop :=
  ∃ kind ∈ ["project", "job"], ∃ resource user, IsId resource ∧ IsId user ∧
    s = kind ++ ":" ++ resource ++ ":" ++ user

theorem isIdChar_iff (c : Char) : isIdChar c ↔ IsIdChar c := by
  simp only [isIdChar, Char.isAlphanum, Char.isAlpha, Char.isUpper, Char.isLower, Char.isDigit,
    IsIdChar, Char.le_def, Bool.or_eq_true, Bool.and_eq_true, decide_eq_true_eq, ge_iff_le, or_assoc]

theorem IsIdChar.ascii {c : Char} (plain : IsIdChar c) : c.toNat < 128 := by
  have upTo {greatest : Char} (small : c ≤ greatest) : c.toNat ≤ greatest.toNat := small
  rcases plain with ⟨_, small⟩ | ⟨_, small⟩ | ⟨_, small⟩ | rfl | rfl
  · exact Nat.lt_of_le_of_lt (upTo small) (by decide)
  · exact Nat.lt_of_le_of_lt (upTo small) (by decide)
  · exact Nat.lt_of_le_of_lt (upTo small) (by decide)
  · decide
  · decide

theorem IsId.ne_empty {id : String} (valid : IsId id) : id ≠ "" := by
  rintro rfl
  exact absurd valid.nonempty (by decide)

theorem IsId.no_colon {id : String} (valid : IsId id) : ':' ∉ id.toList := by
  intro among
  have plain := (isIdChar_iff ':').mpr (valid.plain ':' among)
  exact absurd plain (by decide)

theorem checkId_eq_ok_iff (segment id : String) : checkId segment id = .ok () ↔ IsId id := by
  unfold checkId
  split
  · rename_i empty
    have none : id.length = 0 := by simpa using empty
    refine iff_of_false nofun fun valid => ?_
    have some := valid.nonempty
    omega
  split
  · rename_i _ long
    refine iff_of_false nofun fun valid => ?_
    have size := Utf8.utf8ByteSize_ascii fun c among => (valid.plain c among).ascii
    have short := valid.short
    rw [size] at long
    exact absurd long (Nat.not_lt_of_le short)
  rename_i given short
  cases found : id.toList.find? fun c => !isIdChar c with
  | some bad =>
    refine iff_of_false nofun fun valid => ?_
    have strange := List.find?_some found
    have plain := (isIdChar_iff bad).mpr (valid.plain bad (List.mem_of_find?_eq_some found))
    rw [plain] at strange
    cases strange
  | none =>
    refine iff_of_true rfl ⟨?_, ?_, fun c among => ?_⟩
    · rw [← String.length_toList]
      refine List.length_pos_iff.mpr fun empty => given ?_
      simpa using empty
    · rw [← String.length_toList]
      exact Nat.le_trans (Utf8.length_le_utf8ByteSize id) (Nat.le_of_not_lt short)
    · exact (isIdChar_iff c).mp (by simpa using List.find?_eq_none.mp found c among)

theorem make_eq_ok_iff {kind : Kind} {resource user : String} {t : Topic} :
    make kind resource user = .ok t ↔ t = ⟨kind, resource, user⟩ ∧ IsId resource ∧ IsId user := by
  constructor
  · intro made
    obtain ⟨⟨⟩, first, made⟩ := bind_success made
    obtain ⟨⟨⟩, second, made⟩ := bind_success made
    cases made
    exact ⟨rfl, (checkId_eq_ok_iff _ resource).mp first, (checkId_eq_ok_iff _ user).mp second⟩
  · rintro ⟨rfl, first, second⟩
    rw [make, (checkId_eq_ok_iff _ resource).mpr first, (checkId_eq_ok_iff _ user).mpr second]
    rfl

theorem segments_eq_splitOn (cs : List Char) : segments cs = cs.splitOn ':' := by
  rw [List.splitOn_eq_splitOnP]
  induction cs with
  | nil => rfl
  | cons c rest ih =>
    rw [segments, List.splitOnP_cons_eq_if_modifyHead, ih]
    by_cases colon : c = ':'
    · rw [if_pos colon, if_pos (by simpa using colon)]
    · rw [if_neg colon, if_neg (by simpa using colon)]
      cases found : rest.splitOnP (· == ':') with
      | nil => exact absurd found (List.splitOnP_ne_nil _ rest)
      | cons part parts => rfl

theorem toList_toText (t : Topic) : t.toText.toList =
    [':'].intercalate [(Vocabulary.word t.kind).toList, t.resource.toList, t.user.toList] := by
  simp [toText, List.intercalate]

theorem segments_toText {t : Topic} (resource : IsId t.resource) (user : IsId t.user) :
    segments t.toText.toList =
      [(Vocabulary.word t.kind).toList, t.resource.toList, t.user.toList] := by
  have kind : ':' ∉ (Vocabulary.word t.kind).toList := by cases t.kind <;> decide
  rw [segments_eq_splitOn, toList_toText]
  refine List.splitOn_intercalate ':' (fun part among => ?_) nofun
  simp only [List.mem_cons, List.not_mem_nil, or_false] at among
  rcases among with rfl | rfl | rfl
  · exact kind
  · exact resource.no_colon
  · exact user.no_colon

theorem parse_eq_ok_iff {s : String} {t : Topic} :
    parse s = .ok t ↔ s = t.toText ∧ IsId t.resource ∧ IsId t.user := by
  constructor
  · intro parsed
    unfold parse at parsed
    split at parsed
    · rename_i name resource user split
      cases found : (Vocabulary.find? (String.ofList name) : Option Kind) with
      | none =>
        rw [found] at parsed
        cases parsed
      | some kind =>
        rw [found] at parsed
        obtain ⟨rfl, first, second⟩ := make_eq_ok_iff.mp parsed
        refine ⟨?_, first, second⟩
        have joined : [':'].intercalate [name, resource, user] = s.toList := by
          rw [← split, segments_eq_splitOn, List.intercalate_splitOn]
        rw [← String.toList_inj, toList_toText, Vocabulary.word_of_find? found, ← joined]
        simp only [String.toList_ofList]
    · cases parsed
  · rintro ⟨rfl, first, second⟩
    have kind : Vocabulary.find? (Vocabulary.word t.kind) = some t.kind := by cases t.kind <;> rfl
    rw [parse, segments_toText first second]
    simp only [String.ofList_toList, kind]
    exact make_eq_ok_iff.mpr ⟨rfl, first, second⟩

theorem isChannel_iff (s : String) : (∃ t, parse s = .ok t) ↔ IsChannel s := by
  constructor
  · rintro ⟨t, parsed⟩
    obtain ⟨rfl, resource, user⟩ := parse_eq_ok_iff.mp parsed
    have kind : Vocabulary.word t.kind ∈ ["project", "job"] := by cases t.kind <;> decide
    exact ⟨_, kind, t.resource, t.user, resource, user, rfl⟩
  · rintro ⟨word, among, resource, user, first, second, rfl⟩
    have named : ∃ kind : Kind, Vocabulary.word kind = word := by
      simp only [List.mem_cons, List.not_mem_nil, or_false] at among
      rcases among with rfl | rfl
      · exact ⟨.project, rfl⟩
      · exact ⟨.job, rfl⟩
    obtain ⟨kind, rfl⟩ := named
    exact ⟨⟨kind, resource, user⟩, parse_eq_ok_iff.mpr ⟨rfl, first, second⟩⟩

/-- No other topic is written as one with two identifiers, not even one whose parts are none. -/
theorem eq_of_toText_eq {t other : Topic} (resource : IsId t.resource) (user : IsId t.user)
    (same : other.toText = t.toText) : other = t := by
  obtain ⟨kind, name, owner⟩ := t
  obtain ⟨kind', name', owner'⟩ := other
  have texts := congrArg String.toList same
  simp only [toText, String.toList_append, List.append_assoc] at texts
  have kinds : kind = kind' := by
    cases kind <;> cases kind'
    · rfl
    · cases texts
    · cases texts
    · rfl
  subst kinds
  rw [List.append_cancel_left_eq, List.append_cancel_left_eq] at texts
  have rest : name.toList ++ ':' :: owner.toList = name'.toList ++ ':' :: owner'.toList := texts.symm
  -- neither identifier has a colon, so both texts break at the same place
  obtain ⟨names, _, owners⟩ :=
    (List.append_cons_inj_of_notMem resource.no_colon user.no_colon).mp rest
  cases String.toList_inj.mp names
  cases String.toList_inj.mp owners
  rfl

/-- To make a topic of its parts is to read it from the channel that they make, whatever they are. -/
theorem make_iff_parse {kind : Kind} {resource user : String} {t : Topic} :
    make kind resource user = .ok t ↔ parse (toText ⟨kind, resource, user⟩) = .ok t := by
  rw [make_eq_ok_iff, parse_eq_ok_iff]
  constructor
  · rintro ⟨rfl, first, second⟩
    exact ⟨rfl, first, second⟩
  · rintro ⟨same, first, second⟩
    cases eq_of_toText_eq first second same
    exact ⟨rfl, first, second⟩

end Topic

end NotificationRelay
