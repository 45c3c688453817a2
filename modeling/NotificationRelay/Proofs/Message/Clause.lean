import NotificationRelay.Message.Schema
import NotificationRelay.Proofs.Message.Schema
import NotificationRelay.Proofs.Shape.Places

/-! Schemas as tables of clauses. A clause asks something of the value at a place, wherever that
place is in a tree. A check accepts the trees in which all clauses of its table hold, and what it
says of any other tree is true of a clause that is broken. -/
namespace NotificationRelay

open Json

def Json.at? : Path → Json → Option Json
  | [], j => some j
  | .key name :: path, .object members => (lookup name members).bind (at? path)
  | .index i :: path, .list items => items[i]?.bind (at? path)
  | _ :: _, _ => none

/-- The paths that lead to a place: one for each way to choose the items. -/
inductive Place.Covers : Place → Path → Prop where
  | root : Covers [] []
  | member {place : Place} {path : Path} (key : String) (inner : Covers place path) :
      Covers (.member key :: place) (.key key :: path)
  | item {place : Place} {path : Path} (i : Nat) (inner : Covers place path) :
      Covers (.item :: place) (.index i :: path)

inductive Demand where
  | text
  | name
  | natural
  | number
  | flag
  | timestamp
  | word (words : List String)
  | list
  | object
deriving DecidableEq, Repr

def Demand.Met : Demand → Json → Prop
  | .text, j => ∃ s, j = .text s
  | .name, j => ∃ s, j = .text s ∧ s ≠ ""
  | .natural, j => ∃ n, j = .number (.natural n)
  | .number, j => ∃ n, j = .number n
  | .flag, j => ∃ b, j = .flag b
  | .timestamp, j => ∃ s t, j = .text s ∧ Time.parse s = .ok t
  | .word words, j => ∃ s ∈ words, j = .text s
  | .list, j => ∃ items, j = .list items
  | .object, j => ∃ members, j = .object members

theorem Demand.not_met_null (d : Demand) : ¬d.Met .null := by
  cases d <;> simp [Met]

inductive Presence where
  /-- In every object at the place around, and not null. -/
  | required
  /-- Null counts as missing. -/
  | optional
  /-- Null is a value like any other. -/
  | item
deriving DecidableEq, Repr

structure Clause where
  place : Place
  presence : Presence
  demand : Demand
deriving DecidableEq, Repr

namespace Clause

def below (step : Descent) (c : Clause) : Clause := { c with place := step :: c.place }

structure HoldsAt (c : Clause) (root : Json) (path : Path) : Prop where
  met : ∀ j, root.at? path = some j → c.demand.Met j ∨ (c.presence = .optional ∧ j = .null)
  there : c.presence = .required → ∀ parent name members, path = parent ++ [.key name] →
    root.at? parent = some (.object members) → root.at? path ≠ none

def Holds (c : Clause) (root : Json) : Prop := ∀ path, c.place.Covers path → c.HoldsAt root path

section

variable {c : Clause} {root j : Json} {key : String} {members : List (String × Json)}
  {items : List Json} {path : Path}

theorem holds_root (here : c.place = []) :
    c.Holds root ↔ c.demand.Met root ∨ (c.presence = .optional ∧ root = .null) := by
  constructor
  · intro holds
    exact (holds [] (here ▸ .root)).met root rfl
  · intro met path covers
    rw [here] at covers
    cases covers
    refine ⟨fun j found => ?_, fun _ parent name _ split => ?_⟩
    · cases found
      exact met
    · simp at split

theorem at?_null {path : Path} (down : path ≠ []) : Json.null.at? path = none := by
  cases path with
  | nil => exact absurd rfl down
  | cons part path => cases part <;> rfl

/-- Nothing is below null, and nothing has to be. -/
theorem holds_null (deep : c.place ≠ []) : c.Holds .null := by
  intro path covers
  have down : path ≠ [] := by
    obtain ⟨step, place, same⟩ := List.exists_cons_of_ne_nil deep
    rw [same] at covers
    cases covers <;> exact List.cons_ne_nil _ _
  refine ⟨fun j found => ?_, fun _ parent name members split found => ?_⟩
  · rw [at?_null down] at found
    cases found
  · by_cases top : parent = []
    · rw [top] at found
      cases found
    · rw [at?_null top] at found
      cases found

theorem at?_member (found : lookup key members = some j) :
    (Json.object members).at? (.key key :: path) = j.at? path := by
  rw [at?, found, Option.bind_some]

theorem holdsAt_member (found : lookup key members = some j) :
    (c.below (.member key)).HoldsAt (.object members) (.key key :: path) ↔ c.HoldsAt j path := by
  constructor
  · rintro ⟨met, there⟩
    refine ⟨fun value here => met value (by rwa [at?_member found]), ?_⟩
    intro needed parent name inner split above
    have whole := there needed (.key key :: parent) name inner (by rw [split]; rfl)
      (by rwa [at?_member found])
    rwa [at?_member found] at whole
  · rintro ⟨met, there⟩
    refine ⟨fun value here => met value (by rwa [at?_member found] at here), ?_⟩
    intro needed parent name inner split above
    rw [at?_member found]
    cases parent with
    | nil =>
      cases split
      simp [at?]
    | cons part parent =>
      cases split
      exact there needed parent name inner rfl (by rwa [at?_member found] at above)

theorem holds_member (found : lookup key members = some j) :
    (c.below (.member key)).Holds (.object members) ↔ c.Holds j := by
  constructor
  · intro holds path covers
    exact (holdsAt_member found).mp (holds _ (.member key covers))
  · intro holds path covers
    cases covers with
    | member _ inner => exact (holdsAt_member found).mpr (holds _ inner)

theorem holds_missing (missing : lookup key members = none) :
    (c.below (.member key)).Holds (.object members) ↔
      (c.place = [] → c.presence ≠ .required) := by
  have nothing (path : Path) : (Json.object members).at? (.key key :: path) = none := by
    rw [at?, missing, Option.bind_none]
  constructor
  · intro holds top needed
    have covers : (c.below (.member key)).place.Covers [.key key] := by
      rw [below, top]
      exact .member key .root
    exact (holds _ covers).there needed [] key members rfl rfl (nothing [])
  · intro spared path covers
    cases covers with
    | @member _ path _ inner =>
      refine ⟨fun value here => ?_, fun needed parent name inside split above => ?_⟩
      · rw [nothing] at here
        cases here
      · cases parent with
        | nil =>
          cases split
          cases inner_top : c.place with
          | nil => exact absurd needed (spared inner_top)
          | cons step place =>
            rw [inner_top] at inner
            cases inner
        | cons part parent =>
          cases split
          rw [nothing] at above
          cases above

theorem at?_item {i : Nat} (found : items[i]? = some j) :
    (Json.list items).at? (.index i :: path) = j.at? path := by
  rw [at?, found, Option.bind_some]

theorem holdsAt_item {i : Nat} (found : items[i]? = some j) :
    (c.below .item).HoldsAt (.list items) (.index i :: path) ↔ c.HoldsAt j path := by
  constructor
  · rintro ⟨met, there⟩
    refine ⟨fun value here => met value (by rwa [at?_item found]), ?_⟩
    intro needed parent name members split above
    have whole := there needed (.index i :: parent) name members (by rw [split]; rfl)
      (by rwa [at?_item found])
    rwa [at?_item found] at whole
  · rintro ⟨met, there⟩
    refine ⟨fun value here => met value (by rwa [at?_item found] at here), ?_⟩
    intro needed parent name members split above
    cases parent with
    | nil => cases split
    | cons part parent =>
      cases split
      rw [at?_item found] at above ⊢
      exact there needed parent name members rfl above

theorem holds_item : (c.below .item).Holds (.list items) ↔ ∀ j ∈ items, c.Holds j := by
  constructor
  · intro holds j among path covers
    obtain ⟨i, found⟩ := List.getElem?_of_mem among
    exact (holdsAt_item found).mp (holds _ (.item i covers))
  · intro holds path covers
    cases covers with
    | @item _ path i inner =>
      cases found : items[i]? with
      | some j => exact (holdsAt_item found).mpr (holds j (List.mem_of_getElem? found) path inner)
      | none =>
        have nothing (path : Path) : (Json.list items).at? (.index i :: path) = none := by
          rw [at?, found, Option.bind_none]
        refine ⟨fun value here => ?_, fun _ parent name members split above => ?_⟩
        · rw [nothing] at here
          cases here
        · cases parent with
          | nil => cases split
          | cons part parent =>
            cases split
            rw [nothing] at above
            cases above

end

end Clause

def Rule.demand : Rule → Demand
  | .text => .text
  | .name => .name
  | .natural => .natural
  | .number => .number
  | .flag => .flag
  | .timestamp => .timestamp
  | .texts | .objects _ => .list
  | .word words _ => .word words
  | .object _ => .object

mutual

def Rule.inner : Rule → List Clause
  | .texts => [⟨[.item], .item, .text⟩]
  | .object rules => rules.clauses
  | .objects rules => (⟨[], .item, .object⟩ :: rules.clauses).map (Clause.below .item)
  | .text | .name | .natural | .number | .flag | .timestamp | .word .. => []

def Members.clauses : Members → List Clause
  | .none => []
  | .cons key required rule more =>
    (⟨[], if required then .required else .optional, rule.demand⟩ :: rule.inner).map
      (Clause.below (.member key)) ++ more.clauses

end

theorem Members.clauses_deep : (rules : Members) → ∀ c ∈ rules.clauses, c.place ≠ []
  | .none => by simp [clauses]
  | .cons key required rule more => by
    rw [clauses]
    intro c among
    rcases List.mem_append.mp among with here | later
    · obtain ⟨_, _, rfl⟩ := List.mem_map.mp here
      exact List.cons_ne_nil _ _
    · exact clauses_deep more c later

theorem Rule.inner_deep (rule : Rule) : ∀ c ∈ rule.inner, c.place ≠ [] := by
  cases rule with
  | texts => simp [inner]
  | object rules =>
    rw [inner]
    exact rules.clauses_deep
  | objects rules =>
    rw [inner]
    intro c among
    obtain ⟨_, _, rfl⟩ := List.mem_map.mp among
    exact List.cons_ne_nil _ _
  | _ => simp [inner]

theorem checkThat_iff {accepted : Bool} {path : Path} {reason : String} :
    checkThat accepted path reason = .ok () ↔ accepted = true := by
  cases accepted <;> simp [checkThat]

theorem forM_iff {ε α : Type} {f : α → Except ε Unit} {items : List α} :
    items.forM f = .ok () ↔ ∀ a ∈ items, f a = .ok () := by
  refine ⟨forM_success, fun each => ?_⟩
  induction items with
  | nil => rfl
  | cons a items ih =>
    obtain ⟨first, others⟩ := List.forall_mem_cons.mp each
    exact both_success.mpr ⟨first, ih others⟩

theorem Members.check_cons_iff {path : Path} {members : List (String × Json)} {key : String}
    {required : Bool} {rule : Rule} {more : Members} :
    (Members.cons key required rule more).check path members = .ok () ↔
      ((∀ j, present key members = some j → rule.check (path ++ [.key key]) j = .ok ()) ∧
        (required → present key members ≠ Option.none)) ∧ more.check path members = .ok () := by
  refine ⟨check_cons, ?_⟩
  rintro ⟨⟨passed, needed⟩, others⟩
  rw [Members.check]
  cases found : present key members with
  | some j => exact both_success.mpr ⟨passed j found, others⟩
  | none =>
    cases required with
    | true => exact absurd found (needed rfl)
    | false => exact others

section

variable {key : String} {members : List (String × Json)}

theorem present_of_missing (missing : lookup key members = none) : present key members = none := by
  rw [present, missing]
  rfl

theorem present_of_null (null : lookup key members = some .null) :
    present key members = none := by
  rw [present, null]
  rfl

end

/-- One rule of an object against its clauses. -/
theorem Rule.holds_iff {rule : Rule} {key : String} {required : Bool}
    {members : List (String × Json)} :
    (∀ c ∈ (⟨[], if required then .required else .optional, rule.demand⟩ :: rule.inner : List Clause),
        (c.below (.member key)).Holds (.object members)) ↔
      (∀ j, present key members = some j → rule.demand.Met j ∧ ∀ c ∈ rule.inner, c.Holds j) ∧
        (required → present key members ≠ none) := by
  rw [List.forall_mem_cons]
  cases found : lookup key members with
  | none =>
    have missing := present_of_missing found
    have inner : ∀ c ∈ rule.inner, (c.below (.member key)).Holds (.object members) := fun c among =>
      (Clause.holds_missing found).mpr fun top => absurd top (rule.inner_deep c among)
    rw [Clause.holds_missing found, missing]
    cases required with
    | true => simp
    | false => simpa using inner
  | some j =>
    simp only [Clause.holds_member found]
    rw [Clause.holds_root rfl]
    cases j with
    | null =>
      have missing := present_of_null found
      have inner : ∀ c ∈ rule.inner, c.Holds .null := fun c among =>
        Clause.holds_null (rule.inner_deep c among)
      rw [missing]
      cases required with
      | true => simp [Demand.not_met_null]
      | false => simpa [Demand.not_met_null] using inner
    | _ =>
      rw [present_eq_some.mpr ⟨found, rfl⟩]
      simp

theorem Members.checkObject_iff {path : Path} {rules : Members} {j : Json} :
    rules.checkObject path j = .ok () ↔
      ∃ members, j = .object members ∧ rules.check path members = .ok () := by
  cases j <;> simp [checkObject]

mutual

/-- A value passes a rule if and only if it meets the demand and all that is asked below it. -/
theorem Rule.check_iff : (rule : Rule) → (path : Path) → (j : Json) →
    (rule.check path j = .ok () ↔ rule.demand.Met j ∧ ∀ c ∈ rule.inner, c.Holds j)
  | .text, path, j => by
    rw [Rule.check, checkThat_iff]
    cases j <;> simp [isText, Rule.demand, Demand.Met, Rule.inner]
  | .name, path, j => by
    cases j <;> simp [Rule.check, Rule.demand, Demand.Met, Rule.inner]
  | .natural, path, j => by
    rw [Rule.check, checkThat_iff]
    cases j with
    | number n => cases n <;> simp [isNatural, Rule.demand, Demand.Met, Rule.inner]
    | _ => simp [isNatural, Rule.demand, Demand.Met, Rule.inner]
  | .number, path, j => by
    rw [Rule.check, checkThat_iff]
    cases j <;> simp [isNumber, Rule.demand, Demand.Met, Rule.inner]
  | .flag, path, j => by
    rw [Rule.check, checkThat_iff]
    cases j <;> simp [isFlag, Rule.demand, Demand.Met, Rule.inner]
  | .timestamp, path, j => by
    rw [Rule.check]
    cases j with
    | text s => cases parsed : Time.parse s <;> simp [checkTimestamp, parsed, Rule.demand, Demand.Met, Rule.inner]
    | _ => simp [checkTimestamp, Rule.demand, Demand.Met, Rule.inner]
  | .word words refuse, path, j => by
    cases j with
    | text s => by_cases known : s ∈ words <;> simp [Rule.check, known, Rule.demand, Demand.Met, Rule.inner]
    | _ => simp [Rule.check, Rule.demand, Demand.Met, Rule.inner]
  | .texts, path, j => by
    rw [Rule.check]
    cases j with
    | list items =>
      have item : (⟨[.item], .item, .text⟩ : Clause) = Clause.below .item ⟨[], .item, .text⟩ := rfl
      have each (j : Json) : (⟨[], .item, .text⟩ : Clause).Holds j ↔ isText j = true := by
        rw [Clause.holds_root rfl]
        cases j <;> simp [Demand.Met, isText]
      simp only [Rule.inner, List.mem_singleton, forall_eq, item, Clause.holds_item, each]
      simp only [Rule.demand, Demand.Met, Json.list.injEq, exists_eq', true_and]
      rw [checkTexts]
      cases other : items.findIdx? fun item => !isText item with
      | none => simpa using List.findIdx?_eq_none_iff.mp other
      | some i =>
        obtain ⟨within, broken, _⟩ := List.findIdx?_eq_some_iff_getElem.mp other
        refine iff_of_false (by simp) fun texts => ?_
        rw [texts _ (List.getElem_mem within)] at broken
        cases broken
    | _ => simp [checkTexts, Rule.demand, Demand.Met]
  | .object rules, path, j => by
    rw [Rule.check, Members.checkObject_iff, Rule.demand, Rule.inner]
    constructor
    · rintro ⟨members, rfl, ok⟩
      exact ⟨⟨members, rfl⟩, (Members.check_iff rules path members).mp ok⟩
    · rintro ⟨⟨members, rfl⟩, holds⟩
      exact ⟨members, rfl, (Members.check_iff rules path members).mpr holds⟩
  | .objects rules, path, j => by
    cases j with
    | list items =>
      have each (place : Path) (j : Json) : rules.checkObject place j = .ok () ↔
          ∀ c ∈ (⟨[], .item, .object⟩ :: rules.clauses : List Clause), c.Holds j := by
        rw [Members.checkObject_iff, List.forall_mem_cons, Clause.holds_root rfl]
        constructor
        · rintro ⟨members, rfl, ok⟩
          exact ⟨.inl ⟨members, rfl⟩, (Members.check_iff rules place members).mp ok⟩
        · rintro ⟨⟨members, rfl⟩ | ⟨wrong, _⟩, holds⟩
          · exact ⟨members, rfl, (Members.check_iff rules place members).mpr holds⟩
          · cases wrong
      rw [Rule.check, forM_iff, Rule.inner, List.forall_mem_map]
      simp only [each, Clause.holds_item, Rule.demand, Demand.Met, Json.list.injEq, exists_eq', true_and]
      constructor
      · intro holds c among j listed
        obtain ⟨i, found⟩ := List.getElem?_of_mem listed
        exact holds (j, i) (List.mem_zipIdx_iff_getElem?.mpr found) c among
      · rintro holds ⟨j, i⟩ indexed c among
        exact holds c among j (List.fst_mem_of_mem_zipIdx indexed)
    | _ => simp [Rule.check, Rule.demand, Demand.Met]

theorem Members.check_iff : (rules : Members) → (path : Path) →
    (members : List (String × Json)) →
    (rules.check path members = .ok () ↔ ∀ c ∈ rules.clauses, c.Holds (.object members))
  | .none, path, members => by simp [Members.check, Members.clauses]
  | .cons key required rule more, path, members => by
    rw [Members.check_cons_iff, Members.clauses, List.forall_mem_append, List.forall_mem_map, Rule.holds_iff,
      Members.check_iff more path members]
    simp only [Rule.check_iff rule]

end

end NotificationRelay
