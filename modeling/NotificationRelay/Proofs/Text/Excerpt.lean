import Mathlib
import NotificationRelay.Proofs.Text.Repair
import NotificationRelay.Text.Excerpt

/-! What an excerpt keeps of a text: all of it, or both ends, or the beginning. -/
namespace NotificationRelay.Text

/-- The text starts like a JSON array or object, behind its blanks. -/
def IsNested (text : List Char) : Prop :=
  ∃ blanks mark rest, text = blanks ++ mark :: rest ∧ (∀ c ∈ blanks, isBlank c) ∧
    (mark = '\x7b' ∨ mark = '[')

theorem trimStart_append {blanks : List Char} (blank : ∀ c ∈ blanks, isBlank c) {c : Char}
    {rest : List Char} (visible : isBlank c = false) :
    trimStart (blanks ++ c :: rest) = c :: rest := by
  rw [trimStart, List.dropWhile_append_of_pos blank, List.dropWhile_cons_of_neg (by simp [visible])]

theorem looksNested_iff {text : List Char} : looksNested text ↔ IsNested text := by
  have visible : isBlank '\x7b' = false ∧ isBlank '[' = false := by decide
  constructor
  · intro nested
    have split := text.takeWhile_append_dropWhile (p := isBlank)
    unfold looksNested trimStart at nested
    cases rest : text.dropWhile isBlank with
    | nil =>
      rw [rest] at nested
      cases nested
    | cons mark rest' =>
      rw [rest] at nested split
      exact ⟨_, mark, rest', split.symm, List.all_eq_true.mp List.all_takeWhile,
        by simpa using nested⟩
  · rintro ⟨blanks, mark, rest, rfl, blank, rfl | rfl⟩
    · rw [looksNested, trimStart_append blank visible.1]
      rfl
    · rw [looksNested, trimStart_append blank visible.2]
      rfl

variable {limit : Nat} {text : List Char}

theorem shorten_nested (long : limit < text.length) (nested : IsNested text) (wide : 7 < limit) :
    ∃ head middle tail, text = head ++ middle ++ tail ∧
      shorten limit text = head ++ elision ++ tail ∧ head.length + 5 + tail.length = limit ∧
      (tail.length = head.length ∨ tail.length = head.length + 1) := by
  have marks : elision.length = 5 := rfl
  have outlined : (looksNested text && decide (elision.length + 2 < limit)) = true := by
    rw [looksNested_iff.mpr nested, marks]
    exact decide_eq_true wide
  have shortened : shorten limit text = text.take ((limit - 5) / 2) ++ elision ++
      text.drop (text.length - (limit - 5 - (limit - 5) / 2)) := by
    rw [shorten, if_neg (Nat.not_le_of_lt long), if_pos outlined, marks]
  -- what is left out are as many characters as the text has beyond both ends
  refine ⟨_, (text.drop ((limit - 5) / 2)).take
    (text.length - (limit - 5)), _, ?_, shortened, ?_, ?_⟩
  · have last : text.drop (text.length - (limit - 5 - (limit - 5) / 2)) =
        (text.drop ((limit - 5) / 2)).drop (text.length - (limit - 5)) := by
      rw [List.drop_drop]
      congr 1
      omega
    rw [last, List.append_assoc, List.take_append_drop, List.take_append_drop]
  · rw [List.length_take, List.length_drop]
    omega
  · rw [List.length_take, List.length_drop]
    omega

theorem shorten_plain (room : 3 ≤ limit) (long : limit < text.length)
    (plain : ¬(IsNested text ∧ 7 < limit)) :
    ∃ head rest, text = head ++ rest ∧ shorten limit text = head ++ ['.', '.', '.'] ∧
      head.length + 3 = limit := by
  have cut : ¬(looksNested text && decide (elision.length + 2 < limit)) = true := by
    rw [Bool.and_eq_true, looksNested_iff, decide_eq_true_iff]
    exact plain
  refine ⟨text.take (limit - 3), text.drop (limit - 3), (List.take_append_drop ..).symm, ?_, ?_⟩
  · rw [shorten, if_neg (Nat.not_le_of_lt long), if_neg cut]
  · rw [List.length_take]
    omega

theorem length_shorten (room : 3 ≤ limit) (long : limit < text.length) :
    (shorten limit text).length = limit := by
  by_cases outlined : IsNested text ∧ 7 < limit
  · obtain ⟨head, middle, tail, _, shortened, length, _⟩ :=
      shorten_nested long outlined.1 outlined.2
    rw [shortened, List.length_append, List.length_append]
    exact length
  · obtain ⟨head, rest, _, shortened, length⟩ := shorten_plain room long outlined
    rw [shortened, List.length_append]
    exact length

theorem shorten_short (short : text.length ≤ limit) : shorten limit text = text := if_pos short

theorem length_shorten_le (room : 3 ≤ limit) (text : List Char) :
    (shorten limit text).length ≤ limit := by
  by_cases short : text.length ≤ limit
  · rwa [shorten_short short]
  · exact Nat.le_of_eq (length_shorten room (Nat.lt_of_not_le short))

/-- An excerpt of bytes is the text that they stand for if that is short enough. Otherwise it has as
many characters as it may have: the beginning and the end of the text if it looks nested and there
is room for both, and else the beginning. -/
theorem excerpt_exact (room : 3 ≤ limit) (payload : List UInt8) :
    let text := String.ofList (Utf8.lossy payload)
    let shown := excerpt limit payload
    (∀ other : String, Utf8.Repairs payload other.toList ↔ other = text) ∧
      (text.length ≤ limit → shown = text) ∧
      (limit < text.length → shown.length = limit ∧
        (IsNested text.toList ∧ 7 < limit → ∃ head middle tail, text = head ++ middle ++ tail ∧
          shown = head ++ " ... " ++ tail ∧
          (tail.length = head.length ∨ tail.length = head.length + 1)) ∧
        (¬(IsNested text.toList ∧ 7 < limit) → ∃ head rest, text = head ++ rest ∧
          shown = head ++ "...")) := by
  intro text shown
  have chars : text.toList = Utf8.lossy payload := String.toList_ofList
  have size : text.length = (Utf8.lossy payload).length := String.length_ofList
  have marks : String.ofList elision = " ... " := String.ofList_toList
  rw [size, chars]
  refine ⟨fun other => ?_, fun short => ?_, fun long => ⟨?_, fun outlined => ?_, fun plain => ?_⟩⟩
  · rw [Utf8.repairs_iff, ← chars, String.toList_inj]
  · exact congrArg String.ofList (shorten_short short)
  · exact String.length_ofList.trans (length_shorten room long)
  · obtain ⟨head, middle, tail, split, shortened, _, even⟩ :=
      shorten_nested long outlined.1 outlined.2
    refine ⟨.ofList head, .ofList middle, .ofList tail, ?_, ?_, ?_⟩
    · rw [← String.ofList_append, ← String.ofList_append, ← split]
    · rw [← marks, ← String.ofList_append, ← String.ofList_append, ← shortened]
      rfl
    · rwa [String.length_ofList, String.length_ofList]
  · obtain ⟨head, rest, split, shortened, _⟩ := shorten_plain room long plain
    refine ⟨.ofList head, .ofList rest, ?_, ?_⟩
    · rw [← String.ofList_append, ← split]
    · have dots : "..." = String.ofList ['.', '.', '.'] := rfl
      rw [dots, ← String.ofList_append, ← shortened]
      rfl

/-- A brace behind a blank, a character of two bytes, one that breaks off, and bytes that are no
text. -/
def ragged : List UInt8 :=
  [0x20, 0x7B, 0xC3, 0xA9, 0xE2, 0x82, 0xFF, 0xFF, 0xFF, 0xFF, 0xFF, 0xFF]

theorem excerpt_exact_ragged :
    3 ≤ 9 ∧ (excerpt 9 ragged).length = 9 ∧ ∃ head middle tail,
      String.ofList (Utf8.lossy ragged) = head ++ middle ++ tail ∧
        excerpt 9 ragged = head ++ " ... " ++ tail ∧
        (tail.length = head.length ∨ tail.length = head.length + 1) := by
  have text : Utf8.lossy ragged = [' ', '\x7b', 'é', '\ufffd', '\ufffd', '\ufffd', '\ufffd', '\ufffd',
      '\ufffd', '\ufffd'] := by cbv
  have nested : IsNested (String.ofList (Utf8.lossy ragged)).toList := by
    rw [String.toList_ofList, text]
    exact looksNested_iff.mp (by decide)
  have long : 9 < (String.ofList (Utf8.lossy ragged)).length := by
    rw [String.length_ofList, text]
    decide
  obtain ⟨_, _, shown⟩ := excerpt_exact (show 3 ≤ 9 by decide) ragged
  obtain ⟨length, outlined, _⟩ := shown long
  exact ⟨by decide, length, outlined ⟨nested, by decide⟩⟩

end NotificationRelay.Text
