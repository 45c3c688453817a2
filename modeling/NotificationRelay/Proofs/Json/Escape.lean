import NotificationRelay.Json.Printer
import NotificationRelay.Json.Reader
import NotificationRelay.Proofs.Json.Numeral

/-! Texts with escapes. Every character is read as it is or as its escape is, so a text that is
printed is read as itself. -/
namespace NotificationRelay.Json.Scan

open Utf8

variable {b : UInt8} {more tail rest : Bytes}

theorem toNat_letter (b : UInt8) : (letter b).toNat = b.toNat := by
  have small := b.toNat_lt
  have valid : b.toNat.isValidChar := .inl (by omega)
  rw [letter, Char.ofNat, dif_pos valid]
  rfl

/-- A byte that stands for itself in a text. -/
def Literal (b : UInt8) : Prop := letter b ≠ '"' ∧ letter b ≠ '\\' ∧ 32 ≤ b.toNat

theorem textBytes_literal (plain : Literal b) (read : Yields (textBytes tail) more rest) :
    Yields (textBytes (b :: tail)) (b :: more) rest := by
  obtain ⟨step, ok, rfl, rfl⟩ := read
  have visible : ¬b < 32 := UInt8.not_lt.mpr (UInt8.le_iff_toNat_le.mpr plain.2.2)
  rw [textBytes, if_neg plain.1, if_neg plain.2.1, if_neg visible, ok]
  exact ⟨_, rfl, rfl, rfl⟩

theorem textBytes_literals {front : Bytes} (plain : ∀ b ∈ front, Literal b)
    (read : Yields (textBytes tail) more rest) :
    Yields (textBytes (front ++ tail)) (front ++ more) rest := by
  induction front with
  | nil => exact read
  | cons b front ih =>
    obtain ⟨first, others⟩ := List.forall_mem_cons.mp plain
    exact textBytes_literal first (ih others)

theorem textBytes_escape {front plain : Bytes} (escaped : Yields (escape (front ++ tail)) plain tail)
    (read : Yields (textBytes tail) more rest) :
    Yields (textBytes (byte '\\' :: (front ++ tail))) (plain ++ more) rest := by
  obtain ⟨step, ok, rfl, ends⟩ := escaped
  rw [← ends] at read
  obtain ⟨last, found, rfl, rfl⟩ := read
  have mark : letter (byte '\\') = '\\' := letter_byte (by decide)
  rw [textBytes, if_neg (by rw [mark]; decide), if_pos mark, ok]
  dsimp only
  rw [found]
  exact ⟨_, rfl, rfl, rfl⟩

theorem escape_simple {e : UInt8} {plain : UInt8} (found : simpleEscape e = some plain) :
    Yields (escape ([e] ++ tail)) [plain] tail := by
  rw [List.singleton_append, escape, found]
  exact ⟨_, rfl, rfl, rfl⟩

theorem hexValues_hexDigits : ∀ n < 32, (hexDigits n).map (fun c => hexValue (byte c)) =
    [some 0, some 0, some (n / 16), some (n % 16)] := by
  decide

theorem ascii_hexDigits : ∀ n < 32, (hexDigits n).all (fun c => c.toNat < 0x80) := by
  decide

theorem escape_control {c : Char} (control : c.toNat < 32) :
    Yields (escape (bytes ('u' :: hexDigits c.toNat) ++ tail)) (String.utf8EncodeChar c) tail := by
  have values := hexValues_hexDigits c.toNat control
  have low := List.all_eq_true.mp (ascii_hexDigits c.toNat control)
  have ascii := bytes_ascii fun d among => of_decide_eq_true (low d among)
  generalize hexDigits c.toNat = digits at values ascii low
  simp only [List.map_eq_cons_iff, List.map_eq_nil_iff] at values
  obtain ⟨p, _, rfl, first, q, _, rfl, second, r, _, rfl, third, s, _, rfl, fourth, rfl⟩ := values
  have code : ((0 * 16 + 0) * 16 + c.toNat / 16) * 16 + c.toNat % 16 = c.toNat := by omega
  have hex : Yields (hexCode (bytes [p, q, r, s] ++ tail)) c.toNat tail := by
    rw [ascii]
    change Yields (hexCode (byte p :: byte q :: byte r :: byte s :: tail)) _ _
    unfold hexCode
    simp only [first, second, third, fourth]
    exact ⟨_, rfl, code, rfl⟩
  have unicode : Yields (unicodeEscape (bytes [p, q, r, s] ++ tail)) c tail := by
    obtain ⟨step, ok, value, ends⟩ := hex
    unfold unicodeEscape
    rw [ok]
    simp only [bind, Except.bind, value]
    rw [if_neg (by omega), if_neg (by omega)]
    refine ⟨_, rfl, ?_, ends⟩
    change Char.ofNat step.value = c
    rw [value, Char.ofNat_toNat]
  obtain ⟨step, ok, rfl, ends⟩ := unicode
  have mark : letter (byte 'u') = 'u' := letter_byte (by decide)
  have complex : simpleEscape (byte 'u') = none := by decide
  rw [bytes_cons, encodeChar_ascii (by decide), List.append_assoc, List.singleton_append, escape,
    complex]
  dsimp only
  rw [if_pos mark, ok]
  exact ⟨_, rfl, rfl, ends⟩

theorem escaped_cases (c : Char) :
    (∃ e, escaped c = ['\\', e] ∧ e.toNat < 0x80 ∧ c.toNat < 0x80 ∧
        simpleEscape (byte e) = some (byte c)) ∨
      (escaped c = '\\' :: 'u' :: hexDigits c.toNat ∧ c.toNat < 32) ∨
      (escaped c = [c] ∧ c ≠ '"' ∧ c ≠ '\\' ∧ 32 ≤ c.toNat) := by
  have known {n : Nat} {d : Char} (same : c.toNat = n) (is : d.toNat = n) : c = d :=
    Char.toNat_inj.mp (same.trans is.symm)
  unfold escaped
  split
  · rename_i marked
    rcases marked with rfl | rfl
    · exact .inl ⟨_, rfl, by decide, by decide, by decide⟩
    · exact .inl ⟨_, rfl, by decide, by decide, by decide⟩
  split
  · rename_i same
    obtain rfl := known (d := '\x08') same rfl
    exact .inl ⟨_, rfl, by decide, by decide, by decide⟩
  split
  · rename_i same
    obtain rfl := known (d := '\x0c') same rfl
    exact .inl ⟨_, rfl, by decide, by decide, by decide⟩
  iterate 3
    split
    · rename_i same
      obtain rfl := same
      exact .inl ⟨_, rfl, by decide, by decide, by decide⟩
  split
  · rename_i control
    exact .inr (.inl ⟨rfl, control⟩)
  · rename_i plain _ _ _ _ _ visible
    exact .inr (.inr ⟨rfl, fun same => plain (.inl same), fun same => plain (.inr same), by omega⟩)

theorem literal_of_plain {c : Char} (quote : c ≠ '"') (slash : c ≠ '\\') (visible : 32 ≤ c.toNat) :
    ∀ b ∈ String.utf8EncodeChar c, Literal b := by
  intro b among
  by_cases low : c.toNat < 0x80
  · rw [encodeChar_ascii low] at among
    obtain rfl := List.mem_singleton.mp among
    rw [Literal, letter_byte low, toNat_byte low]
    exact ⟨quote, slash, visible⟩
  · have high := high_of_encodeChar (Nat.le_of_not_lt low) among
    have far {d : Char} (near : d.toNat < 0x80) : letter b ≠ d := by
      rintro rfl
      rw [toNat_letter] at near
      omega
    exact ⟨far (by decide), far (by decide), by omega⟩

/-- Each character of a text is read as it is or as its escape is. -/
theorem textBytes_escaped (c : Char) (read : Yields (textBytes tail) more rest) :
    Yields (textBytes (bytes (escaped c) ++ tail)) (String.utf8EncodeChar c ++ more) rest := by
  obtain ⟨e, spelled, low, ascii, found⟩ | ⟨spelled, control⟩ | ⟨spelled, quote, slash, visible⟩ :=
    escaped_cases c
  · rw [spelled, bytes_cons, bytes_cons, encodeChar_ascii (by decide), encodeChar_ascii low,
      encodeChar_ascii ascii]
    exact textBytes_escape (escape_simple found) read
  · rw [spelled, bytes_cons, encodeChar_ascii (by decide)]
    exact textBytes_escape (escape_control control) read
  · have single : bytes [c] = String.utf8EncodeChar c := List.append_nil _
    rw [spelled, single]
    exact textBytes_literals (literal_of_plain quote slash visible) read

theorem text_escaped (s : String) :
    Yields (text (bytes (s.toList.flatMap escaped) ++ byte '"' :: rest)) s rest := by
  have quoted : Yields (textBytes (bytes (s.toList.flatMap escaped) ++ byte '"' :: rest))
      (bytes s.toList) rest := by
    induction s.toList with
    | nil =>
      rw [List.flatMap_nil]
      change Yields (textBytes (byte '"' :: rest)) _ _
      rw [textBytes, if_pos (letter_byte (by decide))]
      exact yields_ok
    | cons c chars ih =>
      rw [List.flatMap_cons, bytes_append, List.append_assoc, bytes_cons]
      exact textBytes_escaped c ih
  obtain ⟨step, ok, value, ends⟩ := quoted
  rw [text, ok]
  dsimp only
  rw [value, decode_bytes]
  exact ⟨_, rfl, String.ofList_toList, ends⟩

end NotificationRelay.Json.Scan
