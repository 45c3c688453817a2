import Mathlib.Data.List.Nodup
import Mathlib.Data.List.Perm.Basic
import NotificationRelay.Json.Printer
import NotificationRelay.Proofs.Shape.Record

/-! Trees up to the order of members. If no object has a key twice, the canonical form of a tree
keeps everything but that order, and a look-up finds the same in it. -/
namespace NotificationRelay.Json

inductive Distinct : Json → Prop where
  | null : Distinct .null
  | flag (b : Bool) : Distinct (.flag b)
  | number (n : Number) : Distinct (.number n)
  | text (s : String) : Distinct (.text s)
  | list {items : List Json} (items_distinct : ∀ j ∈ items, Distinct j) : Distinct (.list items)
  | object {members : List (String × Json)} (once : (members.map (·.1)).Nodup)
      (members_distinct : ∀ m ∈ members, Distinct m.2) : Distinct (.object members)

theorem Distinct.items {items : List Json} (distinct : Distinct (.list items)) :
    ∀ j ∈ items, j.Distinct := by
  cases distinct with
  | list inside => exact inside

theorem Distinct.members {members : List (String × Json)} (distinct : Distinct (.object members)) :
    (members.map (·.1)).Nodup ∧ ∀ m ∈ members, m.2.Distinct := by
  cases distinct with
  | object once inside => exact ⟨once, inside⟩

section

variable {key : String} {members members' : List (String × Json)} {j : Json}

theorem lookup_eq_none_of_notMem (absent : key ∉ members.map (·.1)) :
    lookup key members = none := by
  rw [lookup_eq_none, occurrences, List.countP_eq_zero]
  intro member among named
  have same : member.1 = key := by simpa using named
  exact absent (List.mem_map.mpr ⟨member, among, same⟩)

theorem occurrences_le_one (once : (members.map (·.1)).Nodup) (key : String) :
    occurrences key members ≤ 1 := by
  have counted : occurrences key members = (members.map (·.1)).count key := by
    rw [occurrences, List.count_eq_countP, List.countP_map]
    rfl
  rw [counted]
  exact List.nodup_iff_count_le_one.mp once key

theorem lookup_eq_some_iff (once : (members.map (·.1)).Nodup) :
    lookup key members = some j ↔ (key, j) ∈ members := by
  refine ⟨mem_of_lookup, fun among => ?_⟩
  induction members with
  | nil => cases among
  | cons member rest ih =>
    obtain ⟨name, value⟩ := member
    obtain ⟨fresh, once⟩ := List.nodup_cons.mp once
    rw [lookup_cons]
    rcases List.mem_cons.mp among with here | later
    · cases here
      rw [lookup_eq_none_of_notMem fresh, if_pos rfl, Option.none_or]
    · rw [ih once later, Option.some_or]

theorem lookup_perm (once : (members.map (·.1)).Nodup) (perm : members.Perm members')
    (key : String) : lookup key members = lookup key members' := by
  have once' : (members'.map (·.1)).Nodup := (perm.map _).nodup_iff.mp once
  apply Option.ext
  intro j
  rw [lookup_eq_some_iff once, lookup_eq_some_iff once', perm.mem_iff]

theorem lookup_map (f : Json → Json) (key : String) (members : List (String × Json)) :
    lookup key (members.map fun m => (m.1, f m.2)) = (lookup key members).map f := by
  induction members with
  | nil => rfl
  | cons member rest ih =>
    rw [List.map_cons, lookup_cons, lookup_cons, ih, Option.map_or]
    congr 1
    split <;> rfl

end

theorem canonicalItems_eq (items : List Json) : canonicalItems items = items.map canonical := by
  induction items with
  | nil => rw [canonicalItems, List.map_nil]
  | cons item rest ih => rw [canonicalItems, ih, List.map_cons]

theorem insertSorted_perm {key : String} {value : Json} {sorted : List (String × Json)}
    (fresh : key ∉ sorted.map (·.1)) :
    (insertSorted key value sorted).Perm ((key, value) :: sorted) := by
  induction sorted with
  | nil => exact .refl _
  | cons member rest ih =>
    obtain ⟨other, old⟩ := member
    obtain ⟨different, fresh⟩ := not_or.mp (List.mem_cons.not.mp fresh)
    rw [insertSorted, if_neg different]
    split
    · exact .refl _
    · exact ((ih fresh).cons _).trans (List.Perm.swap ..)

theorem canonicalMembers_perm {sorted members : List (String × Json)}
    (once : ((sorted ++ members).map (·.1)).Nodup) :
    (canonicalMembers sorted members).Perm
      (sorted ++ members.map fun m => (m.1, m.2.canonical)) := by
  -- what is sorted already grows, and stays apart from what is still to come
  induction members generalizing sorted with
  | nil => rw [canonicalMembers, List.map_nil, List.append_nil]
  | cons member rest ih =>
    obtain ⟨key, value⟩ := member
    have moved : ((sorted ++ (key, value) :: rest).map (·.1)).Perm
        (key :: (sorted ++ rest).map (·.1)) := by
      simp [List.perm_middle]
    obtain ⟨fresh, others⟩ := List.nodup_cons.mp (moved.nodup_iff.mp once)
    have inserted : (insertSorted key value.canonical sorted).Perm
        ((key, value.canonical) :: sorted) := by
      refine insertSorted_perm fun old => fresh ?_
      rw [List.map_append]
      exact List.mem_append_left _ old
    have still : ((insertSorted key value.canonical sorted ++ rest).map (·.1)).Nodup := by
      refine (((inserted.append_right rest).map _).nodup_iff).mpr ?_
      exact List.nodup_cons.mpr ⟨fresh, others⟩
    rw [canonicalMembers]
    refine (ih still).trans ((inserted.append_right _).trans ?_)
    exact List.perm_middle.symm

theorem perm_canonical {members : List (String × Json)} (once : (members.map (·.1)).Nodup) :
    (canonicalMembers [] members).Perm (members.map fun m => (m.1, m.2.canonical)) :=
  @canonicalMembers_perm [] members once

theorem nodup_map_canonical {members : List (String × Json)} (once : (members.map (·.1)).Nodup) :
    ((members.map fun m => (m.1, m.2.canonical)).map (·.1)).Nodup := by
  rwa [List.map_map]

theorem nodup_canonical {members : List (String × Json)} (once : (members.map (·.1)).Nodup) :
    ((canonicalMembers [] members).map (·.1)).Nodup :=
  ((perm_canonical once).map _).nodup_iff.mpr (nodup_map_canonical once)

/-- A value in the canonical form of an object is that of a member. -/
theorem mem_canonical {members : List (String × Json)} (once : (members.map (·.1)).Nodup)
    {m : String × Json} (among : m ∈ canonicalMembers [] members) :
    ∃ old ∈ members, (old.1, old.2.canonical) = m :=
  List.mem_map.mp ((perm_canonical once).mem_iff.mp among)

theorem lookup_canonicalMembers {members : List (String × Json)}
    (once : (members.map (·.1)).Nodup) (key : String) :
    lookup key (canonicalMembers [] members) = (lookup key members).map canonical := by
  rw [← lookup_map]
  exact lookup_perm (nodup_canonical once) (perm_canonical once) key

/-- Objects with the same canonical form hold the same under each key. -/
theorem lookup_of_canonical {members members' : List (String × Json)}
    (once : (members.map (·.1)).Nodup) (once' : (members'.map (·.1)).Nodup)
    (same : (Json.object members).canonical = (Json.object members').canonical) (key : String) :
    (lookup key members).map canonical = (lookup key members').map canonical := by
  rw [canonical, canonical] at same
  have same := Json.object.inj same
  rw [← lookup_canonicalMembers once, ← lookup_canonicalMembers once', same]

theorem insertSorted_comm {a b : String} (different : a ≠ b) (x y : Json)
    (sorted : List (String × Json)) :
    insertSorted a x (insertSorted b y sorted) = insertSorted b y (insertSorted a x sorted) := by
  induction sorted with
  | nil => grind [insertSorted]
  | cons member rest ih => grind [insertSorted]

theorem canonicalMembers_eq_foldl (sorted members : List (String × Json)) :
    canonicalMembers sorted members =
      members.foldl (fun sorted m => insertSorted m.1 m.2.canonical sorted) sorted := by
  induction members generalizing sorted with
  | nil => rw [canonicalMembers, List.foldl_nil]
  | cons member rest ih => rw [canonicalMembers, ih, List.foldl_cons]

theorem canonical_of_perm {members members' : List (String × Json)}
    (once : (members.map (·.1)).Nodup) (perm : members.Perm members') :
    (Json.object members).canonical = (Json.object members').canonical := by
  rw [canonical, canonical, canonicalMembers_eq_foldl, canonicalMembers_eq_foldl]
  congr 1
  refine perm.foldl_eq' (fun m among m' among' sorted => ?_) []
  by_cases named : m.1 = m'.1
  · rw [List.inj_on_of_nodup_map once among among' named]
  · exact insertSorted_comm (Ne.symm named) ..

/-- Only the canonical forms of the members show in that of the object. -/
theorem canonical_of_map {members members' : List (String × Json)}
    (same : (members.map fun m => (m.1, m.2.canonical)) =
      members'.map fun m => (m.1, m.2.canonical)) :
    (Json.object members).canonical = (Json.object members').canonical := by
  have folded (members : List (String × Json)) : canonicalMembers [] members =
      (members.map fun m => (m.1, m.2.canonical)).foldl
        (fun sorted m => insertSorted m.1 m.2 sorted) [] := by
    rw [canonicalMembers_eq_foldl, List.foldl_map]
  rw [canonical, canonical, folded, folded, same]

theorem Distinct.canonical {j : Json} (distinct : j.Distinct) : j.canonical.Distinct := by
  induction distinct with
  | null => exact .null
  | flag b => exact .flag b
  | number n => exact .number n
  | text s => exact .text s
  | list inside ih =>
    rw [Json.canonical, canonicalItems_eq]
    refine .list fun j among => ?_
    obtain ⟨old, there, rfl⟩ := List.mem_map.mp among
    exact ih old there
  | object once inside ih =>
    rw [Json.canonical]
    refine .object (nodup_canonical once) fun m among => ?_
    obtain ⟨old, there, rfl⟩ := mem_canonical once among
    exact ih old there

/-- Sorting twice does no more than sorting once. -/
theorem canonical_canonical {j : Json} (distinct : j.Distinct) :
    j.canonical.canonical = j.canonical := by
  induction distinct with
  | null | flag _ | number _ | text _ => rfl
  | @list items inside ih =>
    rw [canonical, canonicalItems_eq, canonical, canonicalItems_eq, List.map_map]
    congr 1
    exact List.map_congr_left ih
  | @object members once inside ih =>
    rw [canonical, canonical_of_perm (nodup_canonical once) (perm_canonical once), ← canonical]
    refine canonical_of_map ?_
    rw [List.map_map]
    refine List.map_congr_left fun m among => ?_
    rw [Function.comp, ih m among]

end NotificationRelay.Json
