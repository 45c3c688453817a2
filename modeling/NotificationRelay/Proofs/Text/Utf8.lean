import NotificationRelay.Text.Utf8

/-! Text that is encoded in UTF-8 and decoded again. -/
namespace NotificationRelay.Utf8

open String

theorem isValid_toNat (c : Char) : c.toNat < 0xD800 ∨ (0xDFFF < c.toNat ∧ c.toNat < 0x110000) :=
  c.valid

def bytes (text : List Char) : List UInt8 := text.flatMap utf8EncodeChar

theorem bytes_append (a b : List Char) : bytes (a ++ b) = bytes a ++ bytes b := List.flatMap_append

theorem bytes_cons (c : Char) (text : List Char) :
    bytes (c :: text) = utf8EncodeChar c ++ bytes text := List.flatMap_cons

def byte (c : Char) : UInt8 := UInt8.ofNat c.toNat

theorem encodeChar_ascii {c : Char} (low : c.toNat < 0x80) : utf8EncodeChar c = [byte c] := by
  have within : c.val.toNat ≤ 0x7F := Nat.le_of_lt_succ low
  rw [utf8EncodeChar]
  simp only [if_pos within]
  rfl

theorem toNat_ofNat {n : Nat} (within : n < 256) : (UInt8.ofNat n).toNat = n :=
  UInt8.toNat_ofNat_of_lt' within

theorem toNat_of_isDigit {c : Char} (digit : c.isDigit) : 48 ≤ c.toNat ∧ c.toNat ≤ 57 :=
  Char.isDigit_iff_toNat.mp digit

theorem encodeChar_two {c : Char} (low : 0x80 ≤ c.toNat) (high : c.toNat < 0x800) :
    utf8EncodeChar c = [UInt8.ofNat (c.toNat / 64 + 0xC0), UInt8.ofNat (c.toNat % 64 + 0x80)] := by
  have beyond : ¬c.val.toNat ≤ 0x7F := Nat.not_le.mpr low
  have within : c.val.toNat ≤ 0x7FF := Nat.le_of_lt_succ high
  have lead : c.val.toNat / 64 % 0x20 = c.val.toNat / 64 := Nat.mod_eq_of_lt (by omega)
  rw [utf8EncodeChar]
  simp only [if_neg beyond, if_pos within, lead]
  rfl

theorem encodeChar_three {c : Char} (low : 0x800 ≤ c.toNat) (high : c.toNat < 0x10000) :
    utf8EncodeChar c = [UInt8.ofNat (c.toNat / 4096 + 0xE0),
      UInt8.ofNat (c.toNat / 64 % 64 + 0x80), UInt8.ofNat (c.toNat % 64 + 0x80)] := by
  have beyond : ¬c.val.toNat ≤ 0x7F := Nat.not_le.mpr (Nat.lt_of_lt_of_le (by decide) low)
  have beyond' : ¬c.val.toNat ≤ 0x7FF := Nat.not_le.mpr low
  have within : c.val.toNat ≤ 0xFFFF := Nat.le_of_lt_succ high
  have lead : c.val.toNat / 4096 % 0x10 = c.val.toNat / 4096 := Nat.mod_eq_of_lt (by omega)
  rw [utf8EncodeChar]
  simp only [if_neg beyond, if_neg beyond', if_pos within, lead]
  rfl

theorem encodeChar_four {c : Char} (low : 0x10000 ≤ c.toNat) :
    utf8EncodeChar c = [UInt8.ofNat (c.toNat / 262144 + 0xF0),
      UInt8.ofNat (c.toNat / 4096 % 64 + 0x80), UInt8.ofNat (c.toNat / 64 % 64 + 0x80),
      UInt8.ofNat (c.toNat % 64 + 0x80)] := by
  have beyond : ¬c.val.toNat ≤ 0x7F := Nat.not_le.mpr (Nat.lt_of_lt_of_le (by decide) low)
  have beyond' : ¬c.val.toNat ≤ 0x7FF := Nat.not_le.mpr (Nat.lt_of_lt_of_le (by decide) low)
  have above : ¬c.val.toNat ≤ 0xFFFF := Nat.not_le.mpr low
  have bound : c.val.toNat < 0x110000 := by
    rcases isValid_toNat c with small | ⟨_, bound⟩
    · exact Nat.lt_trans small (by decide)
    · exact bound
  have lead : c.val.toNat / 262144 % 0x08 = c.val.toNat / 262144 := Nat.mod_eq_of_lt (by omega)
  rw [utf8EncodeChar]
  simp only [if_neg beyond, if_neg beyond', if_neg above, lead]
  rfl

theorem continuation_tail {n code used tail : Nat} {rest : List UInt8} (within : tail < 64) :
    continuation (n + 1) code used (UInt8.ofNat (tail + 0x80) :: rest) =
      continuation n (code * 64 + tail) (used + 1) rest := by
  have byte : (UInt8.ofNat (tail + 0x80)).toNat = tail + 0x80 := toNat_ofNat (by omega)
  have tail_eq : (tail + 0x80) % 64 = tail := by omega
  rw [continuation, byte, if_pos (by omega), tail_eq]

theorem ofNat_eq {c : Char} {n : Nat} (same : n = c.toNat) : Char.ofNat n = c := by
  rw [same, Char.ofNat_toNat]

theorem high_of_second {n : Nat} {lead : Nat × Nat × Nat × Nat} (found : second n = some lead) :
    ¬n < 0x80 := by
  intro small
  unfold second at found
  repeat (split at found; · omega)
  cases found

theorem unit_of_second {b c : UInt8} {rest : List UInt8} {low high more bits : Nat}
    (found : second b.toNat = some (low, high, more, bits))
    (within : low ≤ c.toNat ∧ c.toNat ≤ high) :
    unit b (c :: rest) = continuation more (bits * 64 + c.toNat % 64) 2 rest := by
  unfold unit
  rw [if_neg (high_of_second found)]
  simp only [found, if_pos within]

section

variable {n : Nat}

/-- The first byte of a character of two bytes lets any byte follow that may stand behind the
first. -/
theorem second_two (low : 0x80 ≤ n) (high : n < 0x800) :
    second (UInt8.ofNat (n / 64 + 0xC0)).toNat = some (0x80, 0xBF, 0, n / 64) := by
  have bits : (n / 64 + 0xC0) % 32 = n / 64 := by omega
  rw [toNat_ofNat (by omega), second, if_pos (by omega), bits]

/-- The first byte of a character of three bytes lets its second one follow. -/
theorem second_three (low : 0x800 ≤ n) (high : n < 0x10000) (valid : n < 0xD800 ∨ 0xDFFF < n) :
    ∃ least greatest,
      second (UInt8.ofNat (n / 4096 + 0xE0)).toNat = some (least, greatest, 1, n / 4096) ∧
        least ≤ n / 64 % 64 + 0x80 ∧ n / 64 % 64 + 0x80 ≤ greatest := by
  have bits : (n / 4096 + 0xE0) % 16 = n / 4096 := by omega
  rw [toNat_ofNat (by omega), second, if_neg (by omega), bits]
  by_cases first : n / 4096 + 0xE0 = 0xE0
  · exact ⟨_, _, if_pos first, by omega, by omega⟩
  rw [if_neg first]
  by_cases last : n / 4096 + 0xE0 = 0xED
  · exact ⟨_, _, if_pos last, by omega, by omega⟩
  rw [if_neg last, if_pos (by omega)]
  exact ⟨_, _, rfl, by omega, by omega⟩

/-- The first byte of a character of four bytes lets its second one follow. -/
theorem second_four (low : 0x10000 ≤ n) (high : n < 0x110000) :
    ∃ least greatest,
      second (UInt8.ofNat (n / 262144 + 0xF0)).toNat = some (least, greatest, 2, n / 262144) ∧
        least ≤ n / 4096 % 64 + 0x80 ∧ n / 4096 % 64 + 0x80 ≤ greatest := by
  have bits : (n / 262144 + 0xF0) % 8 = n / 262144 := by omega
  rw [toNat_ofNat (by omega), second, if_neg (by omega), if_neg (by omega), if_neg (by omega),
    if_neg (by omega), bits]
  by_cases first : n / 262144 + 0xF0 = 0xF0
  · exact ⟨_, _, if_pos first, by omega, by omega⟩
  rw [if_neg first]
  by_cases middle : n / 262144 + 0xF0 ≤ 0xF3
  · exact ⟨_, _, if_pos (by omega), by omega, by omega⟩
  rw [if_neg (by omega), if_pos (by omega)]
  exact ⟨_, _, rfl, by omega, by omega⟩

end

/-- An encoded character is one unit, whatever follows. -/
theorem unit_encoded (c : Char) (rest : List UInt8) :
    ∃ b more, utf8EncodeChar c = b :: more ∧ unit b (more ++ rest) = (some c, more.length + 1) := by
  have valid := isValid_toNat c
  have tail : c.toNat % 64 < 64 := Nat.mod_lt _ (by decide)
  have tail' : c.toNat / 64 % 64 < 64 := Nat.mod_lt _ (by decide)
  by_cases one : c.toNat < 0x80
  · refine ⟨_, _, encodeChar_ascii one, ?_⟩
    unfold unit
    rw [byte, toNat_ofNat (by omega), if_pos one, Char.ofNat_toNat]
    rfl
  by_cases two : c.toNat < 0x800
  · refine ⟨_, _, encodeChar_two (by omega) two, ?_⟩
    have lead := second_two (n := c.toNat) (by omega) two
    have next := toNat_ofNat (n := c.toNat % 64 + 0x80) (by omega)
    rw [List.cons_append, unit_of_second lead (by omega), next, continuation, ofNat_eq (c := c) (by omega)]
    rfl
  by_cases three : c.toNat < 0x10000
  · refine ⟨_, _, encodeChar_three (by omega) three, ?_⟩
    obtain ⟨least, greatest, lead, within⟩ :=
      second_three (n := c.toNat) (by omega) three (valid.imp_right And.left)
    have next := toNat_ofNat (n := c.toNat / 64 % 64 + 0x80) (by omega)
    rw [List.cons_append, unit_of_second lead (by rwa [next]), next, List.cons_append,
      continuation_tail tail, continuation, ofNat_eq (c := c) (by omega)]
    rfl
  · refine ⟨_, _, encodeChar_four (by omega), ?_⟩
    obtain ⟨least, greatest, lead, within⟩ := second_four (n := c.toNat) (by omega) (by omega)
    have next := toNat_ofNat (n := c.toNat / 4096 % 64 + 0x80) (by omega)
    rw [List.cons_append, unit_of_second lead (by rwa [next]), next, List.cons_append,
      continuation_tail tail', List.cons_append, continuation_tail tail, continuation,
      ofNat_eq (c := c) (by omega)]
    rfl

/-- Text that is encoded is decoded as it was. -/
theorem decode_bytes (text : List Char) : decode? (bytes text) = some text := by
  induction text with
  | nil => simp [decode?, bytes, units]
  | cons c text ih =>
    obtain ⟨b, more, encoded, first⟩ := unit_encoded c (bytes text)
    rw [decode?] at ih ⊢
    rw [bytes_cons, encoded, List.cons_append, units]
    simp only [first, Nat.add_sub_cancel, List.drop_left, List.mapM_cons, ih]
    rfl

/-- The bytes of a character behind ASCII are behind ASCII. -/
theorem high_of_encodeChar {c : Char} (high : 0x80 ≤ c.toNat) {b : UInt8}
    (among : b ∈ utf8EncodeChar c) : 0x80 ≤ b.toNat := by
  have valid := isValid_toNat c
  by_cases two : c.toNat < 0x800
  · rw [encodeChar_two high two] at among
    simp only [List.mem_cons, List.not_mem_nil, or_false] at among
    rcases among with rfl | rfl <;> (rw [toNat_ofNat] <;> omega)
  by_cases three : c.toNat < 0x10000
  · rw [encodeChar_three (by omega) three] at among
    simp only [List.mem_cons, List.not_mem_nil, or_false] at among
    rcases among with rfl | rfl | rfl <;> (rw [toNat_ofNat] <;> omega)
  · rw [encodeChar_four (by omega)] at among
    simp only [List.mem_cons, List.not_mem_nil, or_false] at among
    rcases among with rfl | rfl | rfl | rfl <;> (rw [toNat_ofNat] <;> omega)

theorem bytes_ascii {text : List Char} (low : ∀ c ∈ text, c.toNat < 0x80) :
    bytes text = text.map byte := by
  induction text with
  | nil => rfl
  | cons c text ih =>
    obtain ⟨first, others⟩ := List.forall_mem_cons.mp low
    rw [bytes_cons, encodeChar_ascii first, ih others, List.map_cons]
    rfl

theorem utf8ByteSize_eq (s : String) : s.utf8ByteSize = (bytes s.toList).length := by
  rw [← String.ofList_toList (s := s), ← String.size_toByteArray, String.toByteArray_ofList,
    List.utf8Encode, List.size_toByteArray, String.toList_ofList]
  rfl

theorem length_le_utf8ByteSize (s : String) : s.toList.length ≤ s.utf8ByteSize := by
  rw [utf8ByteSize_eq]
  induction s.toList with
  | nil => exact Nat.le_refl 0
  | cons c text ih =>
    have size := String.length_utf8EncodeChar c
    have positive := Char.utf8Size_pos c
    rw [bytes_cons, List.length_append, List.length_cons]
    omega

theorem utf8ByteSize_ascii {s : String} (low : ∀ c ∈ s.toList, c.toNat < 0x80) :
    s.utf8ByteSize = s.length := by
  rw [utf8ByteSize_eq, bytes_ascii low, List.length_map, String.length_toList]

end NotificationRelay.Utf8
