import NotificationRelay.Proofs.Json.Canonical
import NotificationRelay.Proofs.Message.Schema

/-! The core of a tree: what is left of it where a shape reads a record once members that no field
names and members that are null are gone, up to the order of members. -/
namespace NotificationRelay

open Json

namespace Json

def keepMembers (keep : String → Json → Option Json) (members : List (String × Json)) :
    List (String × Json) :=
  members.filterMap fun m => if m.2.isNull then none else (keep m.1 m.2).map fun j => (m.1, j)

def overItems (f : Json → Json) : Json → Json
  | .list items => .list (items.map f)
  | j => j

def overMembers (keep : String → Json → Option Json) : Json → Json
  | .object members => .object (keepMembers keep members)
  | j => j

end Json

namespace Shape

mutual

/-- The tree without the members that are null or unknown, in each object that is read as a
record. -/
def pruned {α : Type} : Shape α → Json → Json
  | .optional shape, j => shape.pruned j
  | .nullable shape, j => shape.pruned j
  | .nullAs _ shape, j => shape.pruned j
  | .sequence shape, j => j.overItems shape.pruned
  | .record _ fields _ _, j => j.overMembers (prunedField fields)
  | .word, j | .halfWord, j | .natural _ _, j | .real, j | .text, j | .flag, j | .instant, j
  | .choice _, j | .tree, j => j

def prunedField {σ τ : Type} : Fields σ τ → String → Json → Option Json
  | .none, _, _ => none
  | .cons name _ shape more, key, j =>
    if key = name then some (shape.pruned j) else prunedField more key j

end

/-- The order of the members is gone too. -/
def core {α : Type} (shape : Shape α) (j : Json) : Json := (shape.pruned j).canonical

end Shape

namespace Json

theorem kind_canonical (j : Json) : j.canonical.kind = j.kind := by
  cases j <;> rfl

theorem isNull_iff_kind {j : Json} : j.isNull ↔ j.kind = "null" := by
  cases j <;> simp [isNull, kind]

theorem kind_overItems (f : Json → Json) (j : Json) : (j.overItems f).kind = j.kind := by
  cases j <;> rfl

theorem kind_overMembers (keep : String → Json → Option Json) (j : Json) :
    (j.overMembers keep).kind = j.kind := by
  cases j <;> rfl

theorem eq_list_of_kind {j : Json} (named : j.kind = "array") : ∃ items, j = .list items := by
  cases j with
  | list items => exact ⟨items, rfl⟩
  | _ => simp [kind] at named

theorem eq_object_of_kind {j : Json} (named : j.kind = "object") :
    ∃ members, j = .object members := by
  cases j with
  | object members => exact ⟨members, rfl⟩
  | _ => simp [kind] at named

section

variable {keep : String → Json → Option Json} {members : List (String × Json)}

theorem mem_keepMembers {key : String} {j : Json} :
    (key, j) ∈ keepMembers keep members ↔
      ∃ old, (key, old) ∈ members ∧ old.isNull = false ∧ keep key old = some j := by
  rw [keepMembers, List.mem_filterMap]
  constructor
  · rintro ⟨⟨name, old⟩, among, kept⟩
    split at kept
    · cases kept
    · rename_i other
      obtain ⟨new, kept, same⟩ := Option.map_eq_some_iff.mp kept
      cases same
      exact ⟨old, among, by simpa using other, kept⟩
  · rintro ⟨old, among, other, kept⟩
    exact ⟨(key, old), among, by simp [other, kept]⟩

theorem nodup_keepMembers (once : (members.map (·.1)).Nodup) :
    ((keepMembers keep members).map (·.1)).Nodup := by
  induction members with
  | nil => exact List.nodup_nil
  | cons member rest ih =>
    obtain ⟨fresh, once⟩ := List.nodup_cons.mp once
    have others := ih once
    rw [keepMembers, List.filterMap_cons]
    split
    · exact others
    · rename_i kept found
      have named : kept.1 = member.1 := by
        split at found
        · cases found
        · obtain ⟨_, _, rfl⟩ := Option.map_eq_some_iff.mp found
          rfl
      refine List.nodup_cons.mpr ⟨fun again => fresh ?_, others⟩
      obtain ⟨⟨name, j⟩, among, same⟩ := List.mem_map.mp again
      obtain ⟨old, among, _⟩ := mem_keepMembers.mp among
      exact List.mem_map.mpr ⟨(name, old), among, same.trans named⟩

theorem lookup_keepMembers (once : (members.map (·.1)).Nodup) (key : String) :
    lookup key (keepMembers keep members) = (present key members).bind (keep key) := by
  apply Option.ext
  intro j
  rw [lookup_eq_some_iff (nodup_keepMembers once), mem_keepMembers, Option.bind_eq_some_iff]
  refine exists_congr fun old => ?_
  rw [present_eq_some, lookup_eq_some_iff once, and_assoc]

end

/-- What is kept of an object is kept of its canonical form. -/
theorem canonical_keepMembers {keep : String → Json → Option Json} {members : List (String × Json)}
    (once : (members.map (·.1)).Nodup)
    (same : ∀ m ∈ members, (keep m.1 m.2.canonical).map canonical = (keep m.1 m.2).map canonical) :
    (Json.object (keepMembers keep (canonicalMembers [] members))).canonical =
      (Json.object (keepMembers keep members)).canonical := by
  have ordered : (keepMembers keep (canonicalMembers [] members)).Perm
      (keepMembers keep (members.map fun m => (m.1, m.2.canonical))) :=
    (perm_canonical once).filterMap _
  rw [canonical_of_perm (nodup_keepMembers (nodup_canonical once)) ordered]
  refine canonical_of_map ?_
  rw [keepMembers, keepMembers, List.filterMap_map, List.map_filterMap, List.map_filterMap]
  refine List.filterMap_congr fun m among => ?_
  have null : m.2.canonical.isNull = m.2.isNull := by
    cases m.2 <;> rfl
  have kept := same m among
  dsimp only [Function.comp]
  rw [null]
  split
  · rfl
  · rw [Option.map_map, Option.map_map]
    have named (o : Option Json) : o.map ((fun m : String × Json => (m.1, m.2.canonical)) ∘
        fun j => (m.1, j)) = (o.map canonical).map fun j => (m.1, j) := by
      rw [Option.map_map]
      rfl
    rw [named, named, kept]

end Json

namespace Shape

variable {α σ τ : Type}

theorem kind_pruned {α : Type} : (shape : Shape α) → (j : Json) → (shape.pruned j).kind = j.kind
  | .optional shape, j => by rw [pruned, kind_pruned shape j]
  | .nullable shape, j => by rw [pruned, kind_pruned shape j]
  | .nullAs _ shape, j => by rw [pruned, kind_pruned shape j]
  | .sequence _, j => by rw [pruned, kind_overItems]
  | .record .., j => by rw [pruned, kind_overMembers]
  | .word, _ | .halfWord, _ | .natural _ _, _ | .real, _ | .text, _ | .flag, _ | .instant, _
  | .choice _, _ | .tree, _ => by rw [pruned]

theorem kind_core (shape : Shape α) (j : Json) : (shape.core j).kind = j.kind := by
  rw [core, kind_canonical, kind_pruned]

theorem core_list (shape : Shape α) (items : List Json) :
    (Shape.sequence shape).core (.list items) = .list (items.map shape.core) := by
  rw [core, pruned, overItems, canonical, canonicalItems_eq, List.map_map]
  rfl

theorem kind_of_core {shape : Shape α} {j j' : Json} (same : shape.core j = shape.core j') :
    j.kind = j'.kind := by
  rw [← kind_core shape j, same, kind_core]

theorem prunedField_of_unknown {σ τ : Type} {key : String} (j : Json) :
    (fields : Fields σ τ) → key ∉ fields.keys → prunedField fields key j = none
  | .none, _ => by rw [prunedField]
  | .cons name _ shape more, unknown => by
    obtain ⟨other, unknown⟩ := not_or.mp (List.mem_cons.not.mp unknown)
    rw [prunedField, if_neg other, prunedField_of_unknown j more unknown]

/-- Neither the order of members nor members that are null or unknown show in the core. -/
theorem core_of_perm {name : String} {fields : Fields σ τ} {build : σ → α} {parts : α → σ}
    {members members' dropped : List (String × Json)} (once : (members.map (·.1)).Nodup)
    (perm : members.Perm (dropped ++ members'))
    (lost : ∀ m ∈ dropped, m.2.isNull ∨ m.1 ∉ fields.keys) :
    (Shape.record name fields build parts).core (.object members) =
      (Shape.record name fields build parts).core (.object members') := by
  have nothing : keepMembers (prunedField fields) dropped = [] := by
    refine List.filterMap_eq_nil_iff.mpr fun m among => ?_
    rcases lost m among with null | unknown
    · rw [if_pos null]
    · rw [prunedField_of_unknown m.2 fields unknown, Option.map_none, ite_self]
  have kept : (keepMembers (prunedField fields) members).Perm
      (keepMembers (prunedField fields) members') := by
    have all := perm.filterMap fun m : String × Json =>
      if m.2.isNull then none else (prunedField fields m.1 m.2).map fun j => (m.1, j)
    rw [List.filterMap_append] at all
    change (keepMembers _ members).Perm (keepMembers _ dropped ++ keepMembers _ members') at all
    rwa [nothing, List.nil_append] at all
  rw [core, core, pruned, pruned, overMembers, overMembers]
  exact canonical_of_perm (nodup_keepMembers once) kept

mutual

/-- The order of the members of a tree does not show in its core. -/
theorem core_canonical {α : Type} {j : Json} (distinct : j.Distinct) :
    (shape : Shape α) → shape.core j.canonical = shape.core j
  | .optional shape => core_canonical distinct shape
  | .nullable shape => core_canonical distinct shape
  | .nullAs _ shape => core_canonical distinct shape
  | .sequence shape => by
    cases distinct with
    | @list items inside =>
      rw [canonical, canonicalItems_eq, core_list, core_list, List.map_map]
      congr 1
      exact List.map_congr_left fun item among => core_canonical (inside item among) shape
    | object once inside =>
      rw [core, core, pruned, pruned]
      exact canonical_canonical (.object once inside)
    | _ => rfl
  | .record _ fields _ _ => by
    cases distinct with
    | @object members once inside =>
      rw [canonical, core, core, pruned, pruned, overMembers, overMembers]
      exact canonical_keepMembers once fun m among =>
        prunedField_canonical (inside m among) m.1 fields
    | list inside =>
      rw [core, core, pruned, pruned]
      exact canonical_canonical (.list inside)
    | _ => rfl
  | .word | .halfWord | .natural _ _ | .real | .text | .flag | .instant
  | .choice _ | .tree => by
    rw [core, core, pruned, pruned]
    exact canonical_canonical distinct

theorem prunedField_canonical {σ τ : Type} {j : Json} (distinct : j.Distinct) (key : String) :
    (fields : Fields σ τ) →
      (prunedField fields key j.canonical).map canonical = (prunedField fields key j).map canonical
  | .none => rfl
  | .cons name _ shape more => by
    rw [prunedField, prunedField]
    split
    · exact congrArg some (core_canonical distinct shape)
    · exact prunedField_canonical distinct key more

end

end Shape

namespace Fields

variable {σ τ : Type}

def Agree {σ τ : Type} (members members' : List (String × Json)) : Fields σ τ → Prop
  | .none => True
  | .cons key _ shape more =>
    (present key members).map shape.core = (present key members').map shape.core ∧
      more.Agree members members'

theorem agree_of_lookups {members members' : List (String × Json)} {σ τ : Type} :
    (fields : Fields σ τ) → fields.keys.Nodup →
    (∀ key ∈ fields.keys,
      ((present key members).bind (Shape.prunedField fields key)).map canonical =
        ((present key members').bind (Shape.prunedField fields key)).map canonical) →
    fields.Agree members members'
  | .none, _, _ => trivial
  | .cons key fallback shape more, nodup, same => by
    obtain ⟨fresh, nodup⟩ := List.nodup_cons.mp nodup
    have here (m : List (String × Json)) : ((present key m).bind
        (Shape.prunedField (.cons key fallback shape more) key)).map canonical =
          (present key m).map shape.core := by
      cases present key m with
      | none => rfl
      | some j => simp [Shape.prunedField, Shape.core]
    have later {name : String} (among : name ∈ more.keys) :
        Shape.prunedField (.cons key fallback shape more) name = Shape.prunedField more name := by
      funext j
      have other : name ≠ key := fun same => fresh (same ▸ among)
      rw [Shape.prunedField, if_neg other]
    refine ⟨?_, agree_of_lookups more nodup fun name among => ?_⟩
    · rw [← here, ← here]
      exact same key List.mem_cons_self
    · rw [← later among]
      exact same name (List.mem_cons_of_mem _ among)

theorem agree_of_core {α : Type} {name : String} {fields : Fields σ τ} {build : σ → α}
    {parts : α → σ} {members members' : List (String × Json)} (nodup : fields.keys.Nodup)
    (once : (members.map (·.1)).Nodup) (once' : (members'.map (·.1)).Nodup)
    (same : (Shape.record name fields build parts).core (.object members) =
      (Shape.record name fields build parts).core (.object members')) :
    fields.Agree members members' := by
  rw [Shape.core, Shape.core, Shape.pruned, Shape.pruned, overMembers, overMembers] at same
  refine agree_of_lookups fields nodup fun key _ => ?_
  rw [← lookup_keepMembers once, ← lookup_keepMembers once']
  exact lookup_of_canonical (nodup_keepMembers once) (nodup_keepMembers once') same key

end Fields

end NotificationRelay
