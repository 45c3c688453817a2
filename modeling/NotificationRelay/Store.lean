import NotificationRelay.Arithmetic

/-! Finite maps: each key is there at most once, and the order of the keys has no meaning. -/
namespace NotificationRelay

structure Store (κ α : Type) where
  entries : List (κ × α)
  distinct : (entries.map (·.1)).Nodup

namespace Store

variable {κ α : Type} [DecidableEq κ]

def empty : Store κ α := ⟨[], by simp⟩

def get? (s : Store κ α) (key : κ) : Option α := (s.entries.find? fun e => e.1 = key).map (·.2)

def erase (s : Store κ α) (key : κ) : Store κ α :=
  ⟨s.entries.filter fun e => e.1 ≠ key, s.distinct.sublist ((List.filter_sublist).map _)⟩

def insert (s : Store κ α) (key : κ) (value : α) : Store κ α :=
  ⟨(key, value) :: (s.erase key).entries, by
    refine List.nodup_cons.mpr ⟨?_, (s.erase key).distinct⟩
    simp [erase]⟩

def alter (s : Store κ α) (key : κ) (f : Option α → Option α) : Store κ α :=
  match f (s.get? key) with
  | some value => s.insert key value
  | none => s.erase key

omit [DecidableEq κ] in
private theorem keys_filterMap_sublist {β : Type} (entries : List (κ × α)) (f : α → Option β) :
    ((entries.filterMap fun e => (f e.2).map (e.1, ·)).map (·.1)).Sublist (entries.map (·.1)) := by
  induction entries with
  | nil => simp
  | cons e rest ih =>
    rw [List.filterMap_cons]
    cases h : f e.2 with
    | none => simpa using ih.cons _
    | some value => simpa using ih.cons_cons e.1

def filterMap {β : Type} (s : Store κ α) (f : α → Option β) : Store κ β :=
  ⟨s.entries.filterMap fun e => (f e.2).map (e.1, ·),
    s.distinct.sublist (keys_filterMap_sublist s.entries f)⟩

def size (s : Store κ α) : Nat := s.entries.length

def values (s : Store κ α) : List α := s.entries.map (·.2)

@[simp]
theorem get?_empty (key : κ) : (empty : Store κ α).get? key = none := rfl

theorem get?_erase (s : Store κ α) (key other : κ) :
    (s.erase key).get? other = if other = key then none else s.get? other := by
  by_cases same : other = key
  · subst same
    simp [get?, erase, List.find?_filter]
  · have keep : (s.entries.filter fun e => e.1 ≠ key).find? (fun e => e.1 = other) =
        s.entries.find? fun e => e.1 = other := by
      rw [List.find?_filter]
      congr 1
      funext e
      by_cases h : e.1 = other <;> simp [h, same]
    simp only [get?, erase, keep, if_neg same]

theorem get?_insert (s : Store κ α) (key other : κ) (value : α) :
    (s.insert key value).get? other = if other = key then some value else s.get? other := by
  by_cases same : key = other
  · subst same
    simp [get?, insert]
  · have rest := s.get?_erase key other
    rw [if_neg (Ne.symm same)] at rest ⊢
    rw [← rest]
    simp [get?, insert, same]

theorem get?_alter (s : Store κ α) (key other : κ) (f : Option α → Option α) :
    (s.alter key f).get? other = if other = key then f (s.get? key) else s.get? other := by
  unfold alter
  cases h : f (s.get? key) with
  | none => exact s.get?_erase key other
  | some value => exact s.get?_insert key other value

end Store

/-- How often each key has been counted. A key that has not is not there. -/
abbrev Tally (κ : Type) := Store κ Nat

namespace Tally

variable {κ : Type} [DecidableEq κ]

def count (t : Tally κ) (key : κ) : Nat := (t.get? key).getD 0

def add (t : Tally κ) (key : κ) (n : Nat) : Tally κ := t.insert key (t.count key + n)

/-- Takes one away; at one or less the key goes. -/
def drop (t : Tally κ) (key : κ) : Tally κ :=
  t.alter key fun n => n.bind fun n => if n ≤ 1 then none else some (n - 1)

theorem count_add (t : Tally κ) (key other : κ) (n : Nat) :
    (t.add key n).count other = if other = key then t.count key + n else t.count other := by
  unfold add count
  rw [Store.get?_insert]
  split <;> simp_all

theorem count_drop (t : Tally κ) (key other : κ) :
    (t.drop key).count other = if other = key then t.count key - 1 else t.count other := by
  unfold drop count
  rw [Store.get?_alter]
  split
  · cases h : t.get? key with
    | none => rfl
    | some n =>
      simp only [Option.bind_some, Option.getD_some]
      split
      · rw [Option.getD_none]
        omega
      · rfl
  · rfl

end Tally

end NotificationRelay
