import NotificationRelay.Proofs.Shape.Record

/-! Where the records of a shape stand. A record is at a place below the root, whatever it holds, so
the trees in which a record repeats one of its keys can be told from a table of places and keys. -/
namespace NotificationRelay

open Json

inductive Descent where
  /-- To the value of a key, which is the last one if it comes twice. -/
  | member (key : String)
  | item
deriving DecidableEq, Repr

abbrev Place := List Descent

namespace Json

def valuesAt : Place → Json → List Json
  | [], j => [j]
  | .member key :: place, .object members => (lookup key members).toList.flatMap (valuesAt place)
  | .item :: place, .list items => items.flatMap (valuesAt place)
  | _ :: _, _ => []

/-- An object at the place has one of the keys twice. -/
def RepeatsAt (j : Json) (place : Place) (keys : List String) : Prop :=
  ∃ members, .object members ∈ j.valuesAt place ∧ ∃ key ∈ keys, 1 < occurrences key members

section

variable {j : Json} {key : String} {place : Place} {keys : List String}

theorem repeatsAt_root :
    j.RepeatsAt [] keys ↔
      ∃ members, j = .object members ∧ ∃ key ∈ keys, 1 < occurrences key members := by
  simp [RepeatsAt, valuesAt, eq_comm]

theorem repeatsAt_member :
    j.RepeatsAt (.member key :: place) keys ↔
      ∃ members, j = .object members ∧
        ∃ value, lookup key members = some value ∧ value.RepeatsAt place keys := by
  cases j with
  | object members =>
    rw [RepeatsAt, valuesAt]
    cases found : lookup key members <;> simp [found, RepeatsAt]
  | _ => simp [RepeatsAt, valuesAt]

theorem repeatsAt_item :
    j.RepeatsAt (.item :: place) keys ↔
      ∃ items, j = .list items ∧ ∃ item ∈ items, item.RepeatsAt place keys := by
  cases j with
  | list items =>
    simp only [RepeatsAt, valuesAt, List.mem_flatMap, list.injEq, exists_eq_left']
    constructor
    · rintro ⟨members, ⟨item, among, there⟩, twice⟩
      exact ⟨item, among, members, there, twice⟩
    · rintro ⟨item, among, members, there, twice⟩
      exact ⟨members, ⟨item, among, there⟩, twice⟩
  | _ => simp [RepeatsAt, valuesAt]

end

def RepeatsIn (j : Json) (table : List (Place × List String)) : Prop :=
  ∃ record ∈ table, j.RepeatsAt record.1 record.2

end Json

def below (step : Descent) (table : List (Place × List String)) : List (Place × List String) :=
  table.map fun record => (step :: record.1, record.2)

section

variable {j : Json} {table more : List (Place × List String)}

theorem repeatsIn_below {step : Descent} :
    j.RepeatsIn (below step table) ↔
      ∃ record ∈ table, j.RepeatsAt (step :: record.1) record.2 := by
  constructor
  · rintro ⟨_, among, twice⟩
    obtain ⟨record, there, rfl⟩ := List.mem_map.mp among
    exact ⟨record, there, twice⟩
  · rintro ⟨record, there, twice⟩
    exact ⟨_, List.mem_map_of_mem there, twice⟩

theorem repeatsIn_cons {place : Place} {keys : List String} :
    j.RepeatsIn ((place, keys) :: table) ↔ j.RepeatsAt place keys ∨ j.RepeatsIn table := by
  simp [RepeatsIn]

theorem repeatsIn_append :
    j.RepeatsIn (table ++ more) ↔ j.RepeatsIn table ∨ j.RepeatsIn more := by
  simp only [RepeatsIn, List.mem_append, or_and_right, exists_or]

theorem repeatsIn_member {key : String} :
    j.RepeatsIn (below (.member key) table) ↔
      ∃ members, j = .object members ∧
        ∃ value, lookup key members = some value ∧ value.RepeatsIn table := by
  simp only [repeatsIn_below, repeatsAt_member]
  constructor
  · rintro ⟨record, among, members, rfl, value, found, twice⟩
    exact ⟨members, rfl, value, found, record, among, twice⟩
  · rintro ⟨members, rfl, value, found, record, among, twice⟩
    exact ⟨record, among, members, rfl, value, found, twice⟩

theorem repeatsIn_item :
    j.RepeatsIn (below .item table) ↔
      ∃ items, j = .list items ∧ ∃ item ∈ items, item.RepeatsIn table := by
  simp only [repeatsIn_below, repeatsAt_item]
  constructor
  · rintro ⟨record, among, items, rfl, item, inside, twice⟩
    exact ⟨items, rfl, item, inside, record, among, twice⟩
  · rintro ⟨items, rfl, item, inside, record, among, twice⟩
    exact ⟨record, among, items, rfl, item, inside, twice⟩

end

mutual

def Shape.records {α : Type} : Shape α → List (Place × List String)
  | .optional shape | .nullable shape | .nullAs _ shape => shape.records
  | .sequence shape => below .item shape.records
  | .record _ fields _ _ => ([], fields.keys) :: fields.records
  | .word | .halfWord | .natural .. | .real | .text | .flag | .instant | .choice _ | .tree => []

def Fields.records {σ τ : Type} : Fields σ τ → List (Place × List String)
  | .none => []
  | .cons key _ shape more => below (.member key) shape.records ++ more.records

end

mutual

/-- A record repeats one of its keys if and only if one in the table does. -/
theorem Shape.repeats_iff {α : Type} : (shape : Shape α) → (j : Json) →
    (shape.Repeats j ↔ j.RepeatsIn shape.records)
  | .optional shape, j => by rw [Repeats, records, repeats_iff shape j]
  | .nullable shape, j => by rw [Repeats, records, repeats_iff shape j]
  | .nullAs _ shape, j => by rw [Repeats, records, repeats_iff shape j]
  | .sequence shape, j => by
    rw [Repeats, records, repeatsIn_item]
    simp only [fun item => repeats_iff shape item]
  | .record _ fields _ _, j => by
    rw [Repeats, records, repeatsIn_cons, repeatsAt_root, ← fieldRepeats_iff fields j]
    simp only [and_or_left, exists_or]
  | .word, _ | .halfWord, _ | .natural .., _ | .real, _ | .text, _ | .flag, _ | .instant, _
  | .choice _, _ | .tree, _ => by simp [Repeats, records, RepeatsIn]

theorem Shape.fieldRepeats_iff {σ τ : Type} : (fields : Fields σ τ) → (j : Json) →
    ((∃ members, j = .object members ∧ FieldRepeats fields members) ↔ j.RepeatsIn fields.records)
  | .none, _ => by simp [FieldRepeats, Fields.records, RepeatsIn]
  | .cons key _ shape more, j => by
    rw [Fields.records, repeatsIn_append, repeatsIn_member, ← fieldRepeats_iff more j]
    simp only [FieldRepeats, fun value => repeats_iff shape value, and_or_left, exists_or]

end

end NotificationRelay
