import NotificationRelay.Net.SocketAddress
import NotificationRelay.Proofs.Json.Numeral
import NotificationRelay.Proofs.Text.Digits

/-! What is read as an address fits its fields, and the text of an address that fits is read as
that address. -/
namespace NotificationRelay.Net

open Json.Scan (leads_toDigits)

def Ends (radix : Nat) (rest : List Char) : Prop := ∀ c ∈ rest.head?, digitIn? radix c = none

/-- Digits that have a value are all digits of the base, and are counted up to that value. -/
theorem foldl_of_digitsValue {radix n : Nat} {text : List Char}
    (read : Text.digitsValue radix text = some n) :
    (∀ c ∈ text, (digitIn? radix c).isSome) ∧
      text.foldl (fun n c => n * radix + (digitIn? radix c).getD 0) 0 = n := by
  suffices counted : ∀ start, text.foldlM
      (fun n c => (digitIn? radix c).map fun d => n * radix + d) start = some n →
      (∀ c ∈ text, (digitIn? radix c).isSome) ∧
        text.foldl (fun n c => n * radix + (digitIn? radix c).getD 0) start = n from counted 0 read
  clear read
  intro start read
  induction text generalizing start with
  | nil => exact ⟨nofun, Option.some.inj read⟩
  | cons c text ih =>
    rw [List.foldlM_cons] at read
    cases here : digitIn? radix c with
    | none => simp [here] at read
    | some d =>
      obtain ⟨later, value⟩ := ih (start * radix + d) (by simpa [here] using read)
      refine ⟨List.forall_mem_cons.mpr ⟨by rw [here]; rfl, later⟩, ?_⟩
      rwa [List.foldl_cons, here]

theorem takeWhile_of_ends {radix : Nat} {rest : List Char} (ends : Ends radix rest) :
    rest.takeWhile (fun c => (digitIn? radix c).isSome) = [] := by
  cases rest with
  | nil => rfl
  | cons c rest => exact List.takeWhile_cons_of_neg (by simp [ends c rfl])

/-- A number is read back from its digits; one without padding, from decimal ones. -/
theorem number_toDigits {radix most greatest n : Nat} {padded : Bool} {rest : List Char}
    (some : 1 < radix) (base : radix ≤ 16) (short : (Nat.toDigits radix n).length ≤ most)
    (fits : n ≤ greatest) (plain : padded = true ∨ radix = 10) (ends : Ends radix rest) :
    number radix most greatest padded (Nat.toDigits radix n ++ rest) = .some (n, rest) := by
  have leading : (!padded && decide ((Nat.toDigits radix n).head? = .some '0') &&
      decide (1 < (Nat.toDigits radix n).length)) = false := by
    obtain rfl | rfl := plain
    · rfl
    · obtain ⟨d, more, digits, single⟩ := leads_toDigits n
      by_cases zero : d = '0'
      · simp [digits, single zero]
      · simp [digits, zero]
  obtain ⟨digits, value⟩ := foldl_of_digitsValue (Text.digitsValue_toDigits some base n)
  unfold number
  rw [List.takeWhile_append_of_pos digits, takeWhile_of_ends ends, List.append_nil]
  simp only [value, leading, List.drop_left]
  rw [if_neg (by simp [Nat.toDigits_ne_nil, short, fits]), if_neg Bool.false_ne_true]

theorem number_of_ends {radix most greatest : Nat} {padded : Bool} {text : List Char}
    (ends : Ends radix text) : number radix most greatest padded text = none := by
  unfold number
  rw [takeWhile_of_ends ends]
  rfl

theorem number_some {radix most greatest n : Nat} {padded : Bool} {text rest : List Char}
    (found : number radix most greatest padded text = some (n, rest)) :
    n ≤ greatest ∧ rest = text.dropWhile fun c => (digitIn? radix c).isSome := by
  unfold number at found
  dsimp only at found
  split at found
  · cases found
  · next allowed =>
    split at found
    · cases found
    · cases found
      refine ⟨Nat.le_of_not_lt fun above => allowed ?_, ?_⟩
      · rw [decide_eq_true above, Bool.or_true]
      · conv =>
          lhs
          arg 2
          rw [← List.takeWhile_append_dropWhile (p := fun c => (digitIn? radix c).isSome)
            (l := text)]
        exact List.drop_left

namespace SocketAddress

/-- Addresses whose numbers fit their fields. -/
def Fits : SocketAddress → Prop
  | .short a b c d port => a ≤ 255 ∧ b ≤ 255 ∧ c ≤ 255 ∧ d ≤ 255 ∧ port ≤ 65535
  | .long groups scope port =>
    groups.length = 8 ∧ (∀ g ∈ groups, g ≤ 65535) ∧ scope ≤ greatest 32 ∧ port ≤ 65535

end SocketAddress

section Read

variable {text rest : List Char}

theorem char_some {c : Char} (found : char c text = some rest) : text = c :: rest := by
  unfold char at found
  split at found
  · split at found
    · next same => rw [same, Option.some.inj found]
    · cases found
  · cases found

theorem fourBytes_some {a b c d : Nat} (found : fourBytes text = some ((a, b, c, d), rest)) :
    a ≤ 255 ∧ b ≤ 255 ∧ c ≤ 255 ∧ d ≤ 255 := by
  simp only [fourBytes, Option.bind_eq_bind, Option.bind_eq_some_iff, Option.pure_def,
    Option.some.injEq, Prod.exists] at found
  obtain ⟨_, _, first, _, _, _, _, second, _, _, _, _, third, _, _, _, _, fourth, same⟩ := found
  cases same
  exact ⟨(number_some first).1, (number_some second).1, (number_some third).1,
    (number_some fourth).1⟩

theorem groups_fit {room index : Nat} {found : List Nat} {ended : Bool}
    (read : groups room index text = (found, ended, rest)) :
    found.length ≤ room ∧ ∀ g ∈ found, g ≤ 65535 := by
  induction room generalizing index text found ended rest with
  | zero =>
    cases read
    simp
  | succ room ih =>
    rw [groups] at read
    dsimp only at read
    split at read
    · next bytes =>
      cases read
      by_cases two : 0 < room
      · rw [if_pos two] at bytes
        obtain ⟨_, _, bytes⟩ := Option.bind_eq_some_iff.mp bytes
        have fit := fourBytes_some bytes
        refine ⟨Nat.succ_le_succ two, ?_⟩
        simp only [List.forall_mem_cons, List.not_mem_nil, false_implies, implies_true, and_true]
        omega
      · simp [two] at bytes
    · split at read
      · next group more one =>
        obtain ⟨_, _, one⟩ := Option.bind_eq_some_iff.mp one
        obtain ⟨short, small⟩ := ih (rfl : groups room (index + 1) more = _)
        cases read
        exact ⟨Nat.succ_le_succ short, List.forall_mem_cons.mpr ⟨(number_some one).1, small⟩⟩
      · cases read
        simp

theorem eightGroups_fit {found : List Nat} (read : eightGroups text = some (found, rest)) :
    found.length = 8 ∧ ∀ g ∈ found, g ≤ 65535 := by
  rcases first : groups 8 0 text with ⟨front, ended, more⟩
  obtain ⟨short, small⟩ := groups_fit first
  rw [eightGroups, first] at read
  dsimp only at read
  split at read
  · next all =>
    cases read
    exact ⟨all, small⟩
  · split at read
    · cases read
    · simp only [Option.bind_eq_bind, Option.bind_eq_some_iff, Option.pure_def,
        Option.some.injEq] at read
      obtain ⟨_, _, last, _, same⟩ := read
      obtain ⟨few, tiny⟩ := groups_fit (rfl : groups (8 - (front.length + 1)) 0 last = _)
      obtain ⟨rfl, -⟩ := Prod.mk.inj same
      constructor
      · simp only [List.length_append, List.length_replicate]
        omega
      · simp only [List.forall_mem_append, List.mem_replicate]
        refine ⟨⟨small, ?_⟩, tiny⟩
        rintro g ⟨_, rfl⟩
        exact Nat.zero_le _

end Read

namespace SocketAddress

theorem parsePort_some {text : List Char} {port : Nat} (found : parsePort text = some port) :
    port ≤ 65535 := by
  simp only [parsePort, Option.bind_eq_bind, Option.bind_eq_some_iff,
    Prod.exists] at found
  obtain ⟨_, _, _, _, read, same⟩ := found
  split at same
  · cases same
    exact (number_some read).1
  · cases same

theorem scope_fst_le (text : List Char) : (scope text).1 ≤ greatest 32 := by
  unfold scope
  cases read : (char '%' text).bind fun rest =>
      number 10 (rest.length + 1) (greatest 32) true rest with
  | none => exact Nat.zero_le _
  | some found =>
    obtain ⟨_, _, number⟩ := Option.bind_eq_some_iff.mp read
    exact (number_some number).1

theorem fits_of_parse {s : String} {a : SocketAddress} (found : parse s = some a) : a.Fits := by
  unfold parse at found
  split at found
  · simp only [Option.bind_eq_bind, Option.bind_eq_some_iff, Option.pure_def, Option.some.injEq,
      Prod.exists] at found
    obtain ⟨_, after, eight, _, _, _, port, same⟩ := found
    obtain ⟨all, small⟩ := eightGroups_fit eight
    cases same
    exact ⟨all, small, scope_fst_le after, parsePort_some port⟩
  · simp only [Option.bind_eq_bind, Option.bind_eq_some_iff, Option.pure_def, Option.some.injEq,
      Prod.exists] at found
    obtain ⟨_, _, _, _, _, four, _, port, same⟩ := found
    obtain ⟨a, b, c, d⟩ := fourBytes_some four
    cases same
    exact ⟨a, b, c, d, parsePort_some port⟩

end SocketAddress

section Written

variable {rest : List Char}

theorem ends_of_not_digit {radix : Nat} {c : Char} (mark : Text.digitValue c = none) :
    Ends radix (c :: rest) := by
  intro first same
  cases same
  rw [digitIn?, mark]
  rfl

def dottedChars (a b c d : Nat) : List Char :=
  Nat.toDigits 10 a ++ '.' :: (Nat.toDigits 10 b ++ '.' :: (Nat.toDigits 10 c ++
    '.' :: Nat.toDigits 10 d))

theorem toList_dotted (a b c d : Nat) :
    (SocketAddress.dotted a b c d).toList = dottedChars a b c d := by
  simp [SocketAddress.dotted, dottedChars]

theorem fourBytes_dottedChars {a b c d : Nat} (first : a ≤ 255) (second : b ≤ 255)
    (third : c ≤ 255) (fourth : d ≤ 255) (ends : Ends 10 rest) :
    fourBytes (dottedChars a b c d ++ rest) = some ((a, b, c, d), rest) := by
  have byte {n : Nat} {rest : List Char} (small : n ≤ 255) (ends : Ends 10 rest) :
      number 10 3 255 false (Nat.toDigits 10 n ++ rest) = some (n, rest) :=
    number_toDigits (by decide) (by decide)
      ((Nat.length_toDigits_le_iff (by decide) (by decide)).mpr (by omega)) small (.inr rfl) ends
  have point {rest : List Char} : Ends 10 ('.' :: rest) := ends_of_not_digit (by decide)
  simp only [fourBytes, dottedChars, List.append_assoc, List.cons_append]
  rw [byte first point]
  change (number 10 3 255 false _).bind _ = _
  rw [byte second point]
  change (number 10 3 255 false _).bind _ = _
  rw [byte third point]
  change (number 10 3 255 false _).bind _ = _
  rw [byte fourth ends]
  rfl

/-- Only a point behind the first digits makes them the first of four bytes. -/
theorem fourBytes_of_no_point {text : List Char}
    (other : (text.dropWhile fun c => (digitIn? 16 c).isSome).head? ≠ some '.') :
    fourBytes text = none := by
  have narrow (c : Char) : (digitIn? 10 c).isSome → (digitIn? 16 c).isSome := by
    unfold digitIn?
    cases Text.digitValue c with
    | none => exact id
    | some d =>
      simp only [Option.isSome_filter, Option.any_some, decide_eq_true_eq]
      omega
  cases read : number 10 3 255 false text with
  | none => simp [fourBytes, read]
  | some found =>
    obtain ⟨n, more⟩ := found
    cases next : char '.' more with
    | none => simp [fourBytes, read, next]
    | some tail =>
      refine absurd ?_ other
      obtain ⟨-, behind⟩ := number_some read
      rw [char_some next] at behind
      have skipped : text.dropWhile (fun c => (digitIn? 16 c).isSome) = '.' :: tail := by
        rw [← List.takeWhile_append_dropWhile (p := fun c => (digitIn? 10 c).isSome) (l := text),
          ← behind, List.dropWhile_append_of_pos fun c among =>
            narrow c (List.mem_takeWhile_imp (p := fun c => (digitIn? 10 c).isSome) among)]
        exact List.dropWhile_cons_of_neg (by decide)
      rw [skipped]
      rfl

def Parts (rest : List Char) : Prop :=
  ∃ more, rest = ':' :: more ∨ rest = '%' :: more ∨ rest = ']' :: more

def Halts (rest : List Char) : Prop :=
  ∃ more, rest = ':' :: ':' :: more ∨ rest = '%' :: more ∨ rest = ']' :: more

theorem Halts.parts (halts : Halts rest) : Parts rest := by
  obtain ⟨more, rfl | same⟩ := halts
  · exact ⟨_, .inl rfl⟩
  · exact ⟨more, .inr same⟩

theorem Parts.mark (parts : Parts rest) :
    ∃ c more, rest = c :: more ∧ Text.digitValue c = none ∧ c ≠ '.' := by
  obtain ⟨more, rfl | rfl | rfl⟩ := parts <;> exact ⟨_, more, rfl, by decide, by decide⟩

theorem Parts.ends (radix : Nat) (parts : Parts rest) : Ends radix rest := by
  obtain ⟨c, more, rfl, mark, -⟩ := parts.mark
  exact ends_of_not_digit mark

theorem Halts.separator (halts : Halts rest) (index : Nat) :
    separator ':' index rest = none ∨
      ∃ c more, separator ':' index rest = some (c :: more) ∧ Text.digitValue c = none := by
  unfold Net.separator
  split
  · obtain ⟨c, more, rfl, mark, -⟩ := halts.parts.mark
    exact .inr ⟨c, more, rfl, mark⟩
  · obtain ⟨more, rfl | rfl | rfl⟩ := halts
    · exact .inr ⟨_, _, rfl, by decide⟩
    · exact .inl (by simp [char])
    · exact .inl (by simp [char])

theorem fourBytes_of_ends {text : List Char} (ends : Ends 10 text) : fourBytes text = none := by
  simp [fourBytes, number_of_ends ends]

theorem groups_of_halts (halts : Halts rest) (room index : Nat) :
    groups room index rest = ([], false, rest) := by
  cases room with
  | zero => rfl
  | succ room =>
    rw [groups]
    obtain none | ⟨c, more, next, mark⟩ := halts.separator index
    · simp [none]
    · simp [next, fourBytes_of_ends (ends_of_not_digit mark),
        number_of_ends (ends_of_not_digit mark : Ends 16 _)]

def groupChars : (index : Nat) → List Nat → List Char
  | _, [] => []
  | index, g :: rest =>
    (if index = 0 then [] else [':']) ++ Nat.toDigits 16 g ++ groupChars (index + 1) rest

theorem groups_group {room index g : Nat} (small : g ≤ 65535) (parts : Parts rest) :
    groups (room + 1) index ((if index = 0 then [] else [':']) ++ Nat.toDigits 16 g ++ rest) =
      (g :: (groups room (index + 1) rest).1, (groups room (index + 1) rest).2) := by
  have group : number 16 4 65535 true (Nat.toDigits 16 g ++ rest) = some (g, rest) :=
    number_toDigits (by decide) (by decide)
      ((Nat.length_toDigits_le_iff (by decide) (by decide)).mpr (by omega)) small (.inl rfl)
      (parts.ends 16)
  have next : separator ':' index
      ((if index = 0 then [] else [':']) ++ Nat.toDigits 16 g ++ rest) =
      some (Nat.toDigits 16 g ++ rest) := by
    unfold separator
    split <;> rfl
  have apart : fourBytes (Nat.toDigits 16 g ++ rest) = none := by
    refine fourBytes_of_no_point ?_
    obtain ⟨c, more, rfl, mark, other⟩ := parts.mark
    obtain ⟨digits, -⟩ :=
      foldl_of_digitsValue (Text.digitsValue_toDigits (by decide : 1 < 16) (by decide) g)
    rw [List.dropWhile_append_of_pos digits,
      List.dropWhile_cons_of_neg (by simp [digitIn?, mark])]
    simpa using other
  rw [groups, next]
  simp [apart, group]

theorem parts_groupChars {index : Nat} {found : List Nat} (parts : Parts rest) :
    Parts (groupChars (index + 1) found ++ rest) := by
  cases found with
  | nil => exact parts
  | cons g more => exact ⟨_, .inl rfl⟩

theorem groups_groupChars {room index : Nat} {found : List Nat} (fit : found.length ≤ room)
    (small : ∀ g ∈ found, g ≤ 65535) (halts : Halts rest) :
    groups room index (groupChars index found ++ rest) = (found, false, rest) := by
  induction found generalizing room index with
  | nil => exact groups_of_halts halts room index
  | cons g found ih =>
    obtain ⟨room, rfl⟩ : ∃ n, room = n + 1 := ⟨room - 1, by simp at fit; omega⟩
    obtain ⟨first, later⟩ := List.forall_mem_cons.mp small
    rw [groupChars, List.append_assoc, groups_group first (parts_groupChars halts.parts),
      ih (Nat.le_of_succ_le_succ fit) later]

theorem intercalate_toDigits (g index : Nat) (found : List Nat) :
    [':'].intercalate ((g :: found).map (Nat.toDigits 16)) =
      Nat.toDigits 16 g ++ groupChars (index + 1) found := by
  induction found generalizing g index with
  | nil => simp [groupChars]
  | cons next found ih =>
    rw [List.map_cons, List.map_cons, List.intercalate_cons_cons, ← List.map_cons,
      ih next (index + 1)]
    simp [groupChars]

theorem toList_colons (found : List Nat) :
    (SocketAddress.colons found).toList = groupChars 0 found := by
  have listed : (SocketAddress.colons found).toList =
      [':'].intercalate (found.map (Nat.toDigits 16)) := by
    simp [SocketAddress.colons, SocketAddress.hex, Function.comp_def]
  rw [listed]
  cases found with
  | nil => rfl
  | cons g found => exact intercalate_toDigits g 0 found

/-- The run that is left out consists of zeros. -/
theorem longestRun_zeros (found : List Nat) {start length : Nat}
    (run : SocketAddress.longestRun found = (start, length)) :
    found = found.take start ++ List.replicate length 0 ++ found.drop (start + length) := by
  have kept (starts : List Nat) (best : Nat × Nat)
      (before : (found.drop best.1).take best.2 = List.replicate best.2 0) :
      let best := starts.foldl (fun best start =>
        let length := ((found.drop start).takeWhile (· = 0)).length
        if best.2 < length then (start, length) else best) best
      (found.drop best.1).take best.2 = List.replicate best.2 0 := by
    induction starts generalizing best with
    | nil => exact before
    | cons start starts ih =>
      refine ih _ ?_
      dsimp only
      split
      · rw [← List.prefix_iff_eq_take.mp (List.takeWhile_prefix _)]
        refine List.eq_replicate_iff.mpr ⟨rfl, fun g among => ?_⟩
        simpa using List.mem_takeWhile_imp among
      · exact before
  have zeros := kept (List.range found.length) (0, 0) rfl
  change (found.drop (SocketAddress.longestRun found).1).take (SocketAddress.longestRun found).2 =
    List.replicate (SocketAddress.longestRun found).2 0 at zeros
  rw [run] at zeros
  dsimp only at zeros
  rw [← zeros, ← List.drop_drop, List.append_assoc, List.take_append_drop, List.take_append_drop]

theorem eightGroups_full {found : List Nat} (all : found.length = 8)
    (small : ∀ g ∈ found, g ≤ 65535) (halts : Halts rest) :
    eightGroups (groupChars 0 found ++ rest) = some (found, rest) := by
  rw [eightGroups, groups_groupChars (Nat.le_of_eq all) small halts]
  exact if_pos all

/-- Two colons stand for the zeros that eight groups lack. -/
theorem eightGroups_gap {front back : List Nat} (few : front.length + back.length < 8)
    (small : ∀ g ∈ front ++ back, g ≤ 65535) (halts : Halts rest) :
    eightGroups (groupChars 0 front ++ ':' :: ':' :: (groupChars 0 back ++ rest)) =
      some (front ++ List.replicate (8 - front.length - back.length) 0 ++ back, rest) := by
  obtain ⟨first, last⟩ := List.forall_mem_append.mp small
  rw [eightGroups, groups_groupChars (by omega) first ⟨_, .inl rfl⟩]
  dsimp only
  rw [if_neg (by omega), if_neg Bool.false_ne_true]
  simp only [char, if_true, Option.bind_eq_bind, Option.bind_some]
  rw [groups_groupChars (by omega) last halts]
  rfl

/-- Four bytes at the end stand for the last two groups. -/
theorem eightGroups_bytes {a b c d : Nat} (first : a ≤ 255) (second : b ≤ 255)
    (third : c ≤ 255) (fourth : d ≤ 255) (halts : Halts rest) :
    eightGroups ("::ffff:".toList ++ (dottedChars a b c d ++ rest)) =
      some ([0, 0, 0, 0, 0, 0xFFFF, a * 256 + b, c * 256 + d], rest) := by
  have last (index : Nat) : groups 6 (index + 1) (':' :: (dottedChars a b c d ++ rest)) =
      ([a * 256 + b, c * 256 + d], true, rest) := by
    have bytes := fourBytes_dottedChars first second third fourth (halts.parts.ends 10)
    rw [groups]
    simp [separator, char, bytes]
  have before : groups 7 0 (Nat.toDigits 16 0xFFFF ++ ':' :: (dottedChars a b c d ++ rest)) =
      ([0xFFFF, a * 256 + b, c * 256 + d], true, rest) := by
    rw [← List.nil_append (Nat.toDigits 16 0xFFFF)]
    refine (groups_group (by decide) ⟨_, .inl rfl⟩).trans ?_
    rw [last]
  have marked : "::ffff:".toList ++ (dottedChars a b c d ++ rest) =
      ':' :: ':' :: (Nat.toDigits 16 0xFFFF ++ ':' :: (dottedChars a b c d ++ rest)) := by
    rfl
  rw [marked, eightGroups, groups_of_halts ⟨_, .inl rfl⟩]
  simp only [List.length_nil, char, if_true, Option.bind_eq_bind, Option.bind_some]
  rw [show 8 - (0 + 1) = 6 + 1 from rfl, before]
  rfl

theorem eightGroups_groupsText {found : List Nat} (all : found.length = 8)
    (small : ∀ g ∈ found, g ≤ 65535) (halts : Halts rest) :
    eightGroups ((SocketAddress.groupsText found).toList ++ rest) = some (found, rest) := by
  unfold SocketAddress.groupsText
  split
  · next high low =>
    have top : high ≤ 65535 := small high (by simp)
    have bottom : low ≤ 65535 := small low (by simp)
    rw [String.toList_append, toList_dotted, List.append_assoc,
      eightGroups_bytes (by omega) (by omega) (by omega) (by omega) halts]
    have joined (n : Nat) : n / 256 * 256 + n % 256 = n := Nat.div_add_mod' n 256
    rw [joined, joined]
  · rcases run : SocketAddress.longestRun found with ⟨start, length⟩
    have zeros := longestRun_zeros found run
    dsimp only
    split
    · next two =>
      have counted := congrArg List.length zeros
      simp only [List.length_append, List.length_replicate] at counted
      simp only [String.toList_append, toList_colons, List.append_assoc]
      have gap :
          8 - (found.take start).length - (found.drop (start + length)).length = length := by
        omega
      refine (eightGroups_gap (by omega) ?_ halts).trans (by rw [gap, ← zeros])
      · refine List.forall_mem_append.mpr ⟨fun g among => ?_, fun g among => ?_⟩
        · exact small g (List.mem_of_mem_take among)
        · exact small g (List.mem_of_mem_drop among)
    · rw [toList_colons]
      exact eightGroups_full all small halts

end Written

namespace SocketAddress

theorem parsePort_toDigits {port : Nat} (small : port ≤ 65535) :
    parsePort (':' :: Nat.toDigits 10 port) = some port := by
  have read : number 10 ((':' :: Nat.toDigits 10 port).length + 1) 65535 true
      (Nat.toDigits 10 port) = some (port, []) := by
    have ends : Ends 10 [] := fun _ none => nomatch none
    rw [← List.append_nil (Nat.toDigits 10 port)]
    exact number_toDigits (by decide) (by decide) (by simp only [List.length_cons]; simp; omega)
      small (.inl rfl) ends
  rw [parsePort]
  simp only [char, if_true, Option.bind_eq_bind, Option.bind_some, read]
  rfl

def scopeChars (n : Nat) : List Char := if n = 0 then [] else '%' :: Nat.toDigits 10 n

theorem scope_scopeChars {n : Nat} {rest : List Char} (small : n ≤ greatest 32) :
    scope (scopeChars n ++ ']' :: rest) = (n, ']' :: rest) := by
  unfold scope scopeChars
  split
  · next none =>
    rw [none]
    simp [char]
  · have read : number 10 ((Nat.toDigits 10 n ++ ']' :: rest).length + 1) (greatest 32) true
        (Nat.toDigits 10 n ++ ']' :: rest) = some (n, ']' :: rest) :=
      number_toDigits (by decide) (by decide) (by simp only [List.length_append]; omega) small
        (.inl rfl) (ends_of_not_digit (by decide))
    simp only [List.cons_append, char, if_true, Option.bind_some, read, Option.getD_some]

theorem parse_short {a b c d port : Nat} (fits : (short a b c d port).Fits) :
    parse (short a b c d port).toText = some (.short a b c d port) := by
  obtain ⟨first, second, third, fourth, small⟩ := fits
  have text : (toText (.short a b c d port)).toList =
      dottedChars a b c d ++ ':' :: Nat.toDigits 10 port := by
    simp [toText, toList_dotted]
  have four := fourBytes_dottedChars first second third fourth
    (ends_of_not_digit (by decide) : Ends 10 (':' :: Nat.toDigits 10 port))
  unfold parse
  split
  · next rest bracket =>
    rw [← text, bracket, fourBytes_of_ends (ends_of_not_digit (by decide))] at four
    cases four
  · rw [text, four]
    simp only [Option.bind_eq_bind, Option.bind_some, parsePort_toDigits small]
    rfl

theorem parse_long {found : List Nat} {n port : Nat} (fits : (long found n port).Fits) :
    parse (long found n port).toText = some (.long found n port) := by
  obtain ⟨all, small, narrow, reached⟩ := fits
  have text : (toText (.long found n port)).toList =
      '[' :: ((groupsText found).toList ++
        (scopeChars n ++ ']' :: ':' :: Nat.toDigits 10 port)) := by
    by_cases none : n = 0 <;> simp [toText, scopeChars, none]
  have halts : Halts (scopeChars n ++ ']' :: ':' :: Nat.toDigits 10 port) := by
    unfold scopeChars
    split
    · exact ⟨_, .inr (.inr rfl)⟩
    · exact ⟨_, .inr (.inl rfl)⟩
  unfold parse
  rw [text]
  simp only [eightGroups_groupsText all small halts, Option.bind_eq_bind, Option.bind_some,
    scope_scopeChars narrow, char, if_true, parsePort_toDigits reached]
  rfl

/-- An address that fits is read back from its text. -/
theorem parse_toText {a : SocketAddress} (fits : a.Fits) : parse a.toText = some a := by
  cases a with
  | short => exact parse_short fits
  | long => exact parse_long fits

/-- However an address is spelled, its own text stands for it as well. -/
theorem parse_toText_of_parse {s : String} {a : SocketAddress} (found : parse s = some a) :
    parse a.toText = some a :=
  parse_toText (fits_of_parse found)

end SocketAddress

end NotificationRelay.Net
