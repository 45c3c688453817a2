import Mathlib.Data.List.Basic
import NotificationRelay.Proofs.Text.Utf8

/-! What bytes stand for where they need not be UTF-8: each byte belongs to an encoded character, or
to a stretch that is none and is mended as a whole. There is one way only to mend them. -/
namespace NotificationRelay.Utf8

open String

/-- The bytes begin an encoded character. -/
def Begins (bytes : List UInt8) : Prop := ∃ c, bytes <+: utf8EncodeChar c

/-- An encoded character stands for itself. Where there is none, U+FFFD stands for the longest
stretch of bytes that begins one, or else for a single byte. -/
inductive Repairs : List UInt8 → List Char → Prop where
  | done : Repairs [] []
  | char (c : Char) {rest : List UInt8} {text : List Char} (later : Repairs rest text) :
      Repairs (utf8EncodeChar c ++ rest) (c :: text)
  | broken {b : UInt8} {tail rest : List UInt8} {text : List Char}
      (unspelled : ∀ c, ¬utf8EncodeChar c <+: b :: (tail ++ rest))
      (part : tail = [] ∨ Begins (b :: tail))
      (longest : ∀ d ∈ rest.head?, ¬Begins (b :: (tail ++ [d]))) (later : Repairs rest text) :
      Repairs (b :: (tail ++ rest)) (Char.ofNat 0xFFFD :: text)

def IsTail (b : UInt8) : Prop := 0x80 ≤ b.toNat ∧ b.toNat ≤ 0xBF

def code (bits : Nat) (tail : List UInt8) : Nat :=
  tail.foldl (fun code b => code * 64 + b.toNat % 64) bits

section

variable {bits used more : Nat} {tail rest : List UInt8} {b : UInt8}

theorem continuation_all (tails : ∀ b ∈ tail, IsTail b) :
    continuation tail.length bits used (tail ++ rest) =
      (some (Char.ofNat (code bits tail)), used + tail.length) := by
  induction tail generalizing bits used with
  | nil => exact continuation.eq_1 ..
  | cons b tail ih =>
    obtain ⟨first, others⟩ := List.forall_mem_cons.mp tails
    rw [List.length_cons, List.cons_append, continuation]
    refine (if_pos first).trans ?_
    rw [ih others, code, code, List.foldl_cons, Nat.add_assoc, Nat.add_comm 1]

theorem continuation_stop (tails : ∀ b ∈ tail, IsTail b) (short : tail.length < more)
    (stops : ∀ b ∈ rest.head?, ¬IsTail b) :
    continuation more bits used (tail ++ rest) = (none, used + tail.length) := by
  induction tail generalizing bits used more with
  | nil =>
    obtain ⟨more, rfl⟩ := Nat.exists_eq_add_one_of_ne_zero (Nat.ne_of_gt short)
    cases rest with
    | nil => rfl
    | cons b rest =>
      rw [List.nil_append, continuation]
      exact if_neg (stops b rfl)
  | cons b tail ih =>
    obtain ⟨first, others⟩ := List.forall_mem_cons.mp tails
    obtain ⟨more, rfl⟩ := Nat.exists_eq_add_one_of_ne_zero (Nat.ne_of_gt (Nat.zero_lt_of_lt short))
    rw [List.cons_append, continuation]
    refine (if_pos first).trans ?_
    rw [ih others (Nat.lt_of_succ_lt_succ short), List.length_cons, Nat.add_assoc, Nat.add_comm 1]

/-- As many of the bytes as are wanted follow, or only some of them. -/
theorem tails_cases (more : Nat) (rest : List UInt8) :
    ∃ tail later, rest = tail ++ later ∧ (∀ b ∈ tail, IsTail b) ∧
      (tail.length = more ∨ tail.length < more ∧ ∀ b ∈ later.head?, ¬IsTail b) := by
  induction more generalizing rest with
  | zero => exact ⟨[], rest, rfl, nofun, .inl rfl⟩
  | succ more ih =>
    cases rest with
    | nil => exact ⟨[], [], rfl, nofun, .inr ⟨Nat.succ_pos _, nofun⟩⟩
    | cons b rest =>
      by_cases follows : IsTail b
      · obtain ⟨tail, later, rfl, tails, number⟩ := ih rest
        refine ⟨b :: tail, later, rfl, List.forall_mem_cons.mpr ⟨follows, tails⟩, ?_⟩
        rw [List.length_cons]
        exact number.imp (congrArg (· + 1)) (And.imp_left Nat.succ_lt_succ)
      · refine ⟨[], b :: rest, rfl, nofun, .inr ⟨Nat.succ_pos _, ?_⟩⟩
        intro c head
        obtain rfl := Option.some.inj head
        exact follows

end

theorem byte_eq {n : Nat} {b : UInt8} (same : n = b.toNat) : UInt8.ofNat n = b := by
  rw [same, UInt8.ofNat_toNat]

theorem toNat_char {n : Nat} (valid : n < 0xD800 ∨ (0xDFFF < n ∧ n < 0x110000)) :
    (Char.ofNat n).toNat = n := by
  rw [Char.ofNat, dif_pos valid]
  rfl

theorem second_cases {lead low high more bits : Nat}
    (found : second lead = some (low, high, more, bits)) :
    0x80 ≤ low ∧ high ≤ 0xBF ∧
      ((more = 0 ∧ 0xC2 ≤ lead ∧ lead ≤ 0xDF ∧ bits + 0xC0 = lead) ∨
        (more = 1 ∧ 0xE0 ≤ lead ∧ lead ≤ 0xEF ∧ bits + 0xE0 = lead ∧
          (lead = 0xE0 → 0xA0 ≤ low) ∧ (lead = 0xED → high ≤ 0x9F)) ∨
        (more = 2 ∧ 0xF0 ≤ lead ∧ lead ≤ 0xF4 ∧ bits + 0xF0 = lead ∧
          (lead = 0xF0 → 0x90 ≤ low) ∧ (lead = 0xF4 → high ≤ 0x8F))) := by
  unfold second at found
  repeat (split at found; · cases found; omega)
  cases found

theorem unit_ascii {b : UInt8} (low : b.toNat < 0x80) (rest : List UInt8) :
    ∃ c, unit b rest = (some c, 1) ∧ utf8EncodeChar c = [b] := by
  have same : (Char.ofNat b.toNat).toNat = b.toNat := toNat_char (by omega)
  refine ⟨Char.ofNat b.toNat, if_pos low, ?_⟩
  rw [encodeChar_ascii (by omega), byte, same, UInt8.ofNat_toNat]

theorem code_nil (bits : Nat) : code bits [] = bits := rfl

theorem code_cons (bits : Nat) (b : UInt8) (tail : List UInt8) :
    code bits (b :: tail) = code (bits * 64 + b.toNat % 64) tail := rfl

/-- What follows a first byte as it should makes an encoded character of it. -/
theorem encodeChar_code {b c : UInt8} {low high more bits : Nat} {tail : List UInt8}
    (found : second b.toNat = some (low, high, more, bits))
    (within : low ≤ c.toNat ∧ c.toNat ≤ high) (tails : ∀ b ∈ tail, IsTail b) (number : tail.length = more) :
    utf8EncodeChar (Char.ofNat (code (bits * 64 + c.toNat % 64) tail)) = b :: c :: tail := by
  obtain ⟨least, greatest, two | three | four⟩ := second_cases found
  · obtain ⟨rfl, first, last, lead⟩ := two
    obtain rfl := List.eq_nil_of_length_eq_zero number
    rw [code_nil]
    have same : (Char.ofNat (bits * 64 + c.toNat % 64)).toNat = bits * 64 + c.toNat % 64 :=
      toNat_char (by omega)
    rw [encodeChar_two (by omega) (by omega), same, byte_eq (b := b) (by omega),
      byte_eq (b := c) (by omega)]
  · obtain ⟨rfl, first, last, lead, longer, surrogate⟩ := three
    obtain ⟨d, rfl⟩ := List.length_eq_one_iff.mp number
    obtain ⟨low', high'⟩ := tails d List.mem_cons_self
    rw [code_cons, code_nil]
    generalize value : (bits * 64 + c.toNat % 64) * 64 + d.toNat % 64 = n
    have same : (Char.ofNat n).toNat = n := toNat_char (by omega)
    rw [encodeChar_three (by omega) (by omega), same, byte_eq (b := b) (by omega),
      byte_eq (b := c) (by omega), byte_eq (b := d) (by omega)]
  · obtain ⟨rfl, first, last, lead, longer, beyond⟩ := four
    obtain ⟨d, e, rfl⟩ := List.length_eq_two.mp number
    obtain ⟨⟨low', high'⟩, ⟨low'', high''⟩⟩ : IsTail d ∧ IsTail e :=
      ⟨tails d (by simp), tails e (by simp)⟩
    rw [code_cons, code_cons, code_nil]
    generalize value : ((bits * 64 + c.toNat % 64) * 64 + d.toNat % 64) * 64 + e.toNat % 64 = n
    have same : (Char.ofNat n).toNat = n := toNat_char (by omega)
    rw [encodeChar_four (by omega), same, byte_eq (b := b) (by omega),
      byte_eq (b := c) (by omega), byte_eq (b := d) (by omega), byte_eq (b := e) (by omega)]

theorem begins_code {b c : UInt8} {low high more bits : Nat} {tail : List UInt8}
    (found : second b.toNat = some (low, high, more, bits))
    (within : low ≤ c.toNat ∧ c.toNat ≤ high) (tails : ∀ b ∈ tail, IsTail b)
    (short : tail.length < more) : Begins (b :: c :: tail) := by
  -- the bytes that are wanting are made up for by the least one that may stand there
  have follows : IsTail 0x80 := ⟨by decide, by decide⟩
  have all : ∀ d ∈ tail ++ List.replicate (more - tail.length) 0x80, IsTail d := by
    intro d among
    rcases List.mem_append.mp among with among | among
    · exact tails d among
    · exact List.eq_of_mem_replicate among ▸ follows
  have number : (tail ++ List.replicate (more - tail.length) 0x80).length = more := by
    rw [List.length_append, List.length_replicate]
    omega
  exact ⟨_, List.replicate (more - tail.length) 0x80,
    (encodeChar_code found within all number).symm⟩

/-- A byte that begins no character is a unit of its own. -/
theorem unit_of_none {b : UInt8} (high : ¬b.toNat < 0x80) (none : second b.toNat = none)
    (rest : List UInt8) : unit b rest = (Option.none, 1) := by
  unfold unit
  rw [if_neg high]
  simp only [none]

section

variable {b c : UInt8} {least greatest more bits : Nat} {tail rest : List UInt8}

theorem unit_single (found : second b.toNat = some (least, greatest, more, bits)) :
    unit b [] = (none, 1) := by
  unfold unit
  rw [if_neg (high_of_second found)]
  simp only [found]

theorem unit_of_outside (found : second b.toNat = some (least, greatest, more, bits))
    (outside : ¬(least ≤ c.toNat ∧ c.toNat ≤ greatest)) (rest : List UInt8) :
    unit b (c :: rest) = (none, 1) := by
  unfold unit
  rw [if_neg (high_of_second found)]
  simp only [found, if_neg outside]

theorem unit_of_all (found : second b.toNat = some (least, greatest, more, bits))
    (within : least ≤ c.toNat ∧ c.toNat ≤ greatest) (tails : ∀ b ∈ tail, IsTail b)
    (number : tail.length = more) :
    unit b (c :: (tail ++ rest)) =
      (some (Char.ofNat (code (bits * 64 + c.toNat % 64) tail)), (c :: tail).length + 1) := by
  rw [unit_of_second found within, ← number, continuation_all tails, List.length_cons,
    Nat.add_comm 2]

/-- Bytes that follow a first byte as they should, of which the last are wanting. -/
theorem unit_of_stop (found : second b.toNat = some (least, greatest, more, bits))
    (within : least ≤ c.toNat ∧ c.toNat ≤ greatest) (tails : ∀ b ∈ tail, IsTail b)
    (short : tail.length < more) (stops : ∀ d ∈ rest.head?, ¬IsTail d) :
    unit b (c :: (tail ++ rest)) = (none, (c :: tail).length + 1) := by
  rw [unit_of_second found within, continuation_stop tails short stops, List.length_cons,
    Nat.add_comm 2]

end

/-- The first unit is an encoded character; or it is none, and that does not depend on what comes
behind the first byte after it. -/
theorem unit_cases (b : UInt8) (rest : List UInt8) :
    (∃ c tail later, rest = tail ++ later ∧ utf8EncodeChar c = b :: tail ∧
      unit b rest = (some c, tail.length + 1)) ∨
    ∃ tail later, rest = tail ++ later ∧ (tail = [] ∨ Begins (b :: tail)) ∧
      unit b rest = (none, tail.length + 1) ∧
      ∀ d ∈ later.head?, ∀ more, unit b (tail ++ d :: more) = (none, tail.length + 1) := by
  by_cases low : b.toNat < 0x80
  · obtain ⟨c, read, spelled⟩ := unit_ascii low rest
    exact .inl ⟨c, [], rest, rfl, spelled, read⟩
  cases found : second b.toNat with
  | none =>
    have lone := unit_of_none low found
    exact .inr ⟨[], rest, rfl, .inl rfl, lone rest, fun d _ more => lone (d :: more)⟩
  | some lead =>
    obtain ⟨least, greatest, more, bits⟩ := lead
    cases rest with
    | nil => exact .inr ⟨[], [], rfl, .inl rfl, unit_single found, nofun⟩
    | cons c rest =>
      by_cases within : least ≤ c.toNat ∧ c.toNat ≤ greatest
      · obtain ⟨tail, later, rfl, tails, number | ⟨short, stops⟩⟩ := tails_cases more rest
        · exact .inl ⟨_, c :: tail, later, rfl, encodeChar_code found within tails number,
            unit_of_all found within tails number⟩
        · refine .inr ⟨c :: tail, later, rfl, .inr (begins_code found within tails short),
            unit_of_stop found within tails short stops, fun d head more => ?_⟩
          refine unit_of_stop found within tails short fun e first => ?_
          obtain rfl := Option.some.inj first
          exact stops d head
      · have lone := unit_of_outside found within
        refine .inr ⟨[], c :: rest, rfl, .inl rfl, lone rest, fun d head more => ?_⟩
        obtain rfl := Option.some.inj head
        exact lone more

/-- No character is spelled where the first unit is none. -/
theorem not_spelled {b : UInt8} {rest : List UInt8} {number : Nat}
    (none : unit b rest = (none, number)) (c : Char) : ¬utf8EncodeChar c <+: b :: rest := by
  rintro ⟨later, split⟩
  obtain ⟨first, tail, spelled, read⟩ := unit_encoded c later
  rw [spelled, List.cons_append] at split
  obtain ⟨rfl, rfl⟩ := List.cons.inj split
  rw [none] at read
  cases read

theorem repairs_lossy (payload : List UInt8) : Repairs payload (lossy payload) := by
  have shorter (tail later : List UInt8) : later.length < (tail ++ later).length + 1 := by
    rw [List.length_append]
    omega
  -- on the number of bytes, since a unit takes several at a time
  induction size : payload.length using Nat.strongRecOn generalizing payload with
  | ind size ih =>
    subst size
    cases payload with
    | nil =>
      rw [lossy, units]
      exact .done
    | cons b rest =>
      rw [lossy, units, List.map_cons, ← lossy]
      obtain ⟨c, tail, later, rfl, spelled, read⟩ | ⟨tail, later, rfl, part, read, cut⟩ :=
        unit_cases b rest
      · rw [read, Nat.add_sub_cancel, List.drop_left, ← List.cons_append, ← spelled]
        refine .char c (ih _ (shorter tail later) later rfl)
      · rw [read, Nat.add_sub_cancel, List.drop_left]
        refine .broken (not_spelled read) part (fun d head begins => ?_)
          (ih _ (shorter tail later) later rfl)
        -- with one byte more it would begin a character, whose last bytes could then come behind it
        obtain ⟨c, more, spelled⟩ := begins
        refine not_spelled (cut d head more) c ?_
        rw [← spelled, List.cons_append, List.append_assoc]
        exact List.prefix_rfl

theorem encodeChar_append_inj {c c' : Char} {rest rest' : List UInt8}
    (same : utf8EncodeChar c ++ rest = utf8EncodeChar c' ++ rest') : c = c' ∧ rest = rest' := by
  obtain ⟨b, tail, spelled, read⟩ := unit_encoded c rest
  obtain ⟨b', tail', spelled', read'⟩ := unit_encoded c' rest'
  rw [spelled, spelled', List.cons_append, List.cons_append] at same
  obtain ⟨rfl, behind⟩ := List.cons.inj same
  rw [behind] at read
  obtain ⟨one, number⟩ := Prod.mk.inj (read.symm.trans read')
  exact ⟨Option.some.inj one, (List.append_inj behind (Nat.succ.inj number)).2⟩

/-- Of two stretches that cannot be longer, none is shorter. -/
theorem not_longer {b : UInt8} {tail tail' rest : List UInt8}
    (part : tail' = [] ∨ Begins (b :: tail'))
    (longest : ∀ d ∈ rest.head?, ¬Begins (b :: (tail ++ [d]))) {d : UInt8} {more later : List UInt8}
    (longer : tail' = tail ++ d :: more) : rest ≠ d :: later := by
  rintro rfl
  rcases part with rfl | ⟨c, begins⟩
  · exact List.append_ne_nil_of_right_ne_nil tail (List.cons_ne_nil d more) longer.symm
  · refine longest d rfl ⟨c, List.IsPrefix.trans ⟨more, ?_⟩ begins⟩
    rw [longer, List.cons_append, List.append_assoc]
    rfl

/-- A stretch that cannot be longer ends where any other one does. -/
theorem stretch_unique {b : UInt8} {tail tail' rest rest' : List UInt8}
    (part : tail = [] ∨ Begins (b :: tail)) (longest : ∀ d ∈ rest.head?, ¬Begins (b :: (tail ++ [d])))
    (part' : tail' = [] ∨ Begins (b :: tail'))
    (longest' : ∀ d ∈ rest'.head?, ¬Begins (b :: (tail' ++ [d])))
    (same : tail ++ rest = tail' ++ rest') : rest = rest' := by
  -- one of the two stretches goes on where the other has ended, by `more`
  obtain ⟨more, split, behind⟩ | ⟨more, split, behind⟩ := List.append_eq_append_iff.mp same
  · cases more with
    | nil => exact behind
    | cons d more => exact absurd behind (not_longer part' longest split)
  · cases more with
    | nil => exact behind.symm
    | cons d more => exact absurd behind (not_longer part longest' split)

theorem encodeChar_append_ne_nil (c : Char) (rest : List UInt8) : utf8EncodeChar c ++ rest ≠ [] := by
  obtain ⟨b, tail, spelled, _⟩ := unit_encoded c []
  rw [spelled]
  exact List.cons_ne_nil _ _

theorem Repairs.unique {payload : List UInt8} {text text' : List Char} (one : Repairs payload text)
    (other : Repairs payload text') : text = text' := by
  induction one generalizing text' with
  | done =>
    generalize source : ([] : List UInt8) = payload at other
    cases other with
    | done => rfl
    | char c => exact absurd source.symm (encodeChar_append_ne_nil c _)
    | broken => cases source
  | @char c rest text later ih =>
    generalize source : utf8EncodeChar c ++ rest = payload at other
    cases other with
    | done => exact absurd source (encodeChar_append_ne_nil c rest)
    | char c' later' =>
      obtain ⟨rfl, rfl⟩ := encodeChar_append_inj source
      rw [ih later']
    | broken unspelled => exact absurd ⟨rest, source⟩ (unspelled c)
  | @broken b tail rest text unspelled part longest later ih =>
    generalize source : b :: (tail ++ rest) = payload at other
    cases other with
    | done => cases source
    | char c' => exact absurd ⟨_, source.symm⟩ (unspelled c')
    | broken _ part' longest' later' =>
      obtain ⟨rfl, behind⟩ := List.cons.inj source
      obtain rfl := stretch_unique part longest part' longest' behind
      rw [ih later']

theorem repairs_iff {payload : List UInt8} {text : List Char} :
    Repairs payload text ↔ text = lossy payload := by
  constructor
  · exact fun repairs => repairs.unique (repairs_lossy payload)
  · rintro rfl
    exact repairs_lossy payload

end NotificationRelay.Utf8
