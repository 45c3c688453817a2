import NotificationRelay.Proofs.Json.Canonical
import NotificationRelay.Proofs.Json.Numeral
import NotificationRelay.Proofs.Text.Phrase
import NotificationRelay.Settings.Layer

/-! What layers of settings hold. A value that is laid on a path stands there, and nothing changes on
the paths that lead elsewhere; so of several values for a setting the last one counts. -/
namespace NotificationRelay

namespace Json

inductive Tidy : Json → Prop where
  | plain {j : Json} (other : ∀ members, j ≠ .object members) : Tidy j
  | table {members : List (String × Json)} (ascending : (members.map (·.1)).Pairwise (· < ·))
      (inside : ∀ m ∈ members, Tidy m.2) : Tidy (.object members)

theorem Tidy.members {members : List (String × Json)} (tidy : Tidy (.object members)) :
    (members.map (·.1)).Pairwise (· < ·) ∧ ∀ m ∈ members, Tidy m.2 := by
  cases tidy with
  | plain other => exact absurd rfl (other members)
  | table ascending inside => exact ⟨ascending, inside⟩

section

variable {key : String} {value : Json} {members : List (String × Json)}

theorem self_mem_insertSorted : (key, value) ∈ insertSorted key value members := by
  induction members with
  | nil => exact List.mem_cons_self
  | cons member rest ih =>
    rw [insertSorted]
    split
    · exact List.mem_cons_self
    · split
      · exact List.mem_cons_self
      · exact List.mem_cons_of_mem _ ih

theorem mem_insertSorted {m : String × Json} (among : m ∈ insertSorted key value members) :
    m = (key, value) ∨ m ∈ members := by
  induction members with
  | nil => exact .inl (List.mem_singleton.mp among)
  | cons member rest ih =>
    obtain ⟨other, old⟩ := member
    rw [insertSorted] at among
    split at among
    · rcases List.mem_cons.mp among with here | later
      · exact .inl here
      · exact .inr (List.mem_cons_of_mem _ later)
    · split at among
      · exact List.mem_cons.mp among
      · rcases List.mem_cons.mp among with here | later
        · exact .inr (here ▸ List.mem_cons_self)
        · exact (ih later).imp_right (List.mem_cons_of_mem _)

theorem ascending_insertSorted (ascending : (members.map (·.1)).Pairwise (· < ·)) :
    ((insertSorted key value members).map (·.1)).Pairwise (· < ·) := by
  induction members with
  | nil => exact List.pairwise_singleton ..
  | cons member rest ih =>
    obtain ⟨other, old⟩ := member
    obtain ⟨first, later⟩ := List.pairwise_cons.mp ascending
    rw [insertSorted]
    split
    · next same => exact same ▸ ascending
    · next different =>
      split
      · next before =>
        refine List.pairwise_cons.mpr ⟨fun name among => ?_, ascending⟩
        rcases List.mem_cons.mp among with rfl | behind
        · exact before
        · exact String.lt_trans before (first name behind)
      · next notBefore =>
        refine List.pairwise_cons.mpr ⟨fun name among => ?_, ih later⟩
        obtain ⟨m, inserted, rfl⟩ := List.mem_map.mp among
        rcases mem_insertSorted inserted with rfl | old
        · grind
        · exact first _ (List.mem_map_of_mem old)

theorem lookup_insertSorted (ascending : (members.map (·.1)).Pairwise (· < ·)) :
    lookup key (insertSorted key value members) = some value := by
  have once : ((insertSorted key value members).map (·.1)).Nodup :=
    (ascending_insertSorted ascending).imp String.ne_of_lt
  exact (lookup_eq_some_iff once).mpr self_mem_insertSorted

theorem lookup_insertSorted_of_ne {other : String} (different : other ≠ key) :
    lookup other (insertSorted key value members) = lookup other members := by
  induction members with
  | nil => simp [insertSorted, lookup_cons, Ne.symm different]
  | cons member rest ih =>
    obtain ⟨name, old⟩ := member
    rw [insertSorted]
    split
    · next same =>
      rw [lookup_cons, lookup_cons, if_neg (Ne.symm different), if_neg (same ▸ Ne.symm different)]
    · split
      · rw [lookup_cons, if_neg (Ne.symm different), Option.or_none]
      · rw [lookup_cons, ih, ← lookup_cons]

theorem Tidy.insert (tidy : Tidy (.object members)) (fits : Tidy value) :
    Tidy (.object (insertSorted key value members)) := by
  obtain ⟨ascending, inside⟩ := tidy.members
  refine .table (ascending_insertSorted ascending) fun m among => ?_
  rcases mem_insertSorted among with rfl | old
  · exact fits
  · exact inside m old

end

end Json

namespace Layer

open Json

/-- What stands on a path of keys. -/
def find : List String → Option Json → Option Json
  | [], held => held
  | key :: rest, held => find rest (lookup key (table held))

def Apart (path other : List String) : Prop := ¬ path <+: other ∧ ¬ other <+: path

section

variable {value : Json} {below : Option Json}

theorem tidy_table (tidy : ∀ j ∈ below, Tidy j) : Tidy (.object (table below)) := by
  have empty : Tidy (.object []) := .table .nil fun m none => nomatch none
  unfold table
  split
  · exact tidy _ rfl
  · exact empty

theorem tidy_some {j : Json} (tidy : Tidy j) : ∀ held ∈ some j, Tidy held :=
  fun _ same => Option.some.inj same ▸ tidy

theorem tidy_lookup {key : String} {members : List (String × Json)}
    (tidy : Tidy (.object members)) : ∀ j ∈ lookup key members, Tidy j :=
  fun _ found => tidy.members.2 _ (mem_of_lookup found)

mutual

theorem tidy_cover : (value : Json) → {below : Option Json} → (∀ j ∈ below, Tidy j) →
    Tidy (cover below value)
  | .object members, _, tidy => by
    rw [cover]
    exact tidy_coverMembers members tidy
  | .null, _, _ | .flag _, _, _ | .number _, _, _ | .text _, _, _ | .list _, _, _ => .plain nofun

theorem tidy_coverMembers : (members : List (String × Json)) → {below : Option Json} →
    (∀ j ∈ below, Tidy j) → Tidy (coverMembers below members)
  | [], below, tidy => by
    rw [coverMembers]
    cases below with
    | none => exact tidy_table tidy
    | some held => exact tidy held rfl
  | (key, value) :: rest, below, tidy => by
    have held := tidy_table tidy
    have covered : Tidy (cover (lookup key (table below)) value) :=
      tidy_cover value (tidy_lookup held)
    rw [coverMembers]
    exact tidy_coverMembers rest (tidy_some (held.insert covered))

end

theorem tidy_put (path : List String) (tidy : ∀ j ∈ below, Tidy j) :
    Tidy (put value path below) := by
  induction path generalizing below with
  | nil => exact tidy_cover value tidy
  | cons key rest ih =>
    have held := tidy_table tidy
    exact held.insert (ih (tidy_lookup held))

/-- What is laid on a path covers what stood there. -/
theorem find_put (path : List String) (tidy : ∀ j ∈ below, Tidy j) :
    find path (some (put value path below)) = some (cover (find path below) value) := by
  induction path generalizing below with
  | nil => rfl
  | cons key rest ih =>
    have held := tidy_table tidy
    rw [put, find, table, lookup_insertSorted held.members.1, ih (tidy_lookup held), find]

/-- Elsewhere everything stays as it is. -/
theorem find_put_of_apart {path other : List String} (tidy : ∀ j ∈ below, Tidy j)
    (apart : Apart path other) : find other (some (put value path below)) = find other below := by
  induction path generalizing other below with
  | nil => exact absurd List.nil_prefix apart.1
  | cons key rest ih =>
    cases other with
    | nil => exact absurd List.nil_prefix apart.2
    | cons name more =>
      have held := tidy_table tidy
      rw [put, find, table, find]
      by_cases same : name = key
      · subst same
        have later : Apart rest more :=
          ⟨fun leads => apart.1 ((List.prefix_cons_inj name).mpr leads),
            fun leads => apart.2 ((List.prefix_cons_inj name).mpr leads)⟩
        rw [lookup_insertSorted held.members.1, ih (tidy_lookup held) later]
      · rw [lookup_insertSorted_of_ne same]

end

section

variable {values before after : List (String × Json)} {below : Json}

theorem tidy_putAll (tidy : Tidy below) : Tidy (putAll values below) := by
  unfold putAll
  induction values generalizing below with
  | nil => exact tidy
  | cons named rest ih => exact ih (tidy_put _ (tidy_some tidy))

theorem find_putAll_of_apart {path : List String} (tidy : Tidy below)
    (apart : ∀ named ∈ values, Apart (Layer.path named.1) path) :
    find path (some (putAll values below)) = find path (some below) := by
  unfold putAll
  induction values generalizing below with
  | nil => rfl
  | cons named rest ih =>
    obtain ⟨first, later⟩ := List.forall_mem_cons.mp apart
    rw [List.foldl_cons, ih (tidy_put _ (tidy_some tidy)) later,
      find_put_of_apart (tidy_some tidy) first]

/-- Of several values for a setting the last one is laid over what the others have left. -/
theorem find_putAll {name : String} {value : Json} (tidy : Tidy below)
    (apart : ∀ named ∈ after, Apart (path named.1) (path name)) :
    find (path name) (some (putAll (before ++ (name, value) :: after) below)) =
      some (cover (find (path name) (some (putAll before below))) value) := by
  have tidied : ∀ held ∈ some (putAll before below), Tidy held := tidy_some (tidy_putAll tidy)
  have laid : putAll (before ++ (name, value) :: after) below =
      putAll after (put value (path name) (some (putAll before below))) :=
    List.foldl_append
  rw [laid, find_putAll_of_apart (tidy_put _ tidied) apart, find_put _ tidied]

/-- A variable holds no table, so it takes the place of all that stood there. -/
theorem cover_ofVariable (list : Bool) (text : String) (below : Option Json) :
    cover below (ofVariable list text) = ofVariable list text := by
  unfold ofVariable
  split
  · rfl
  · split
    · rfl
    · split
      · rfl
      · split
        · rfl
        · split <;> rfl

end

theorem rounded_lt (x : Binary64) : rounded x < twoTo 64 := by
  have below : greatest 64 < twoTo 64 := Nat.sub_lt (twoTo_pos 64) Nat.one_pos
  unfold rounded
  split
  · exact twoTo_pos 64
  · exact Nat.lt_of_le_of_lt (Nat.min_le_right ..) below

theorem number_lt {held : Json.Number} {n : Int} (whole : number held = .inl n) :
    n < twoTo 63 := by
  cases held with
  | natural k =>
    rw [number] at whole
    split at whole
    · next fits => exact Sum.inl.inj whole ▸ Int.ofNat_lt.mpr fits
    · cases whole
  | negative k =>
    obtain rfl := Sum.inl.inj whole
    have := twoTo_pos 63
    omega
  | real x => cases whole

theorem word_lt {value : Json} {n : Nat} (found : word value = some n) : n < twoTo 64 := by
  have small {k : Nat} (fits : k < 2) : k < twoTo 64 := Nat.lt_of_lt_of_le fits (by decide)
  have read (digits : List Char) (found : (if digits.isEmpty || !digits.all Char.isDigit then none
      else (some (Binary64.digitsOf digits)).filter (· < twoTo 64)) = some n) : n < twoTo 64 := by
    split at found
    · cases found
    · exact of_decide_eq_true (Option.filter_eq_some_iff.mp found).2
  cases value with
  | flag b =>
    cases found
    exact small b.toNat_lt
  | number held =>
    rw [word] at found
    split at found
    · next whole =>
      have fits := number_lt whole
      have narrow : twoTo 63 < twoTo 64 := by decide
      split at found
      · cases found
      · cases found
        omega
    · cases found
      exact rounded_lt _
  | text s =>
    rw [word] at found
    split at found
    · cases found
      exact small (by decide)
    · split at found
      · cases found
        exact small (by decide)
      · exact read _ found
  | null | list _ | object _ => cases found

section

variable (n : Nat)

theorem lowerCase_toString : lowerCase (toString n) = toString n := by
  have same : (Nat.toDigits 10 n).flatMap Text.lowered = Nat.toDigits 10 n := by
    have kept (c : Char) (among : c ∈ Nat.toDigits 10 n) : Text.lowered c = [c] :=
      Text.lowered_of_isDigit (Scan.digits_toDigits n c among)
    rw [List.flatMap_congr kept, List.flatMap_singleton']
  rw [lowerCase, Nat.toString_eq_ofList_toDigits, String.toList_ofList, same]

theorem digitsOf_toDigits : Binary64.digitsOf (Nat.toDigits 10 n) = n := by
  have fold (text : List Char) (start : Nat) :
      text.foldl (fun n c => n * 10 + (c.toNat - 48)) start = Nat.ofDigitChars 10 text start := by
    induction text generalizing start with
    | nil => rfl
    | cons c rest ih =>
      rw [List.foldl_cons, ih, Nat.ofDigitChars_cons, Nat.mul_comm start]
      rfl
  rw [Binary64.digitsOf, fold, Nat.ofDigitChars_ten_toDigits]

theorem splitSign_toDigits :
    Binary64.splitSign (Nat.toDigits 10 n) = (false, Nat.toDigits 10 n) := by
  have digits := Scan.digits_toDigits n
  unfold Binary64.splitSign
  split
  · next sign => exact absurd (digits '+' (sign ▸ List.mem_cons_self)) (by decide)
  · next sign => exact absurd (digits '-' (sign ▸ List.mem_cons_self)) (by decide)
  · rfl

theorem integer?_toString (fits : n < twoTo 63) : integer? (toString n) = some (n : Int) := by
  have digits : (Nat.toDigits 10 n).all Char.isDigit = true :=
    List.all_eq_true.mpr (Scan.digits_toDigits n)
  unfold integer?
  rw [Nat.toString_eq_ofList_toDigits, String.toList_ofList, splitSign_toDigits]
  dsimp only
  rw [if_neg (by simp [digits, Nat.toDigits_ne_nil]), if_neg Bool.false_ne_true,
    digitsOf_toDigits, if_pos fits]

/-- A number that a variable holds is read as it stands. -/
theorem word_ofVariable (list : Bool) (fits : n < twoTo 63) :
    word (ofVariable list (toString n)) = some n := by
  have digit (word : String) (first : Char) (more : List Char) (spelled : word.toList = first :: more)
      (other : first.isDigit = false) : toString n ≠ word := by
    rintro rfl
    rw [Nat.toString_eq_ofList_toDigits, String.toList_ofList] at spelled
    have isDigit := Scan.digits_toDigits n first (spelled ▸ List.mem_cons_self)
    rw [other] at isDigit
    cases isDigit
  have held : ofVariable list (toString n) = .number (.natural n) := by
    rw [ofVariable, lowerCase_toString, if_neg (digit "true" 't' _ rfl rfl),
      if_neg (digit "false" 'f' _ rfl rfl), integer?_toString n fits]
    dsimp only
    rw [ofInt, if_neg (by omega), Int.natAbs_natCast]
  rw [held, word, number, if_pos fits]
  dsimp only
  rw [if_neg (by omega), Int.natAbs_natCast]

end

end Layer

end NotificationRelay
