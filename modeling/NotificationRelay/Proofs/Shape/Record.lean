import NotificationRelay.Proofs.Shape.Tree

/-! Records by their keys. As long as no key of a record comes twice, the order of the members does
not matter: each field is what the tree holds under its key. -/
namespace NotificationRelay

open Json

namespace Json

def occurrences (key : String) (members : List (String × Json)) : Nat :=
  members.countP fun member => member.1 = key

theorem lookup_cons (key name : String) (j : Json) (members : List (String × Json)) :
    lookup key ((name, j) :: members) =
      (lookup key members).or (if name = key then some j else none) := by
  unfold lookup
  rw [List.reverse_cons, List.find?_append]
  cases members.reverse.find? fun member => decide (member.1 = key) with
  | some member => rfl
  | none => by_cases same : name = key <;> simp [same]

theorem occurrences_cons (key name : String) (j : Json) (members : List (String × Json)) :
    occurrences key ((name, j) :: members) =
      occurrences key members + if name = key then 1 else 0 := by
  rw [occurrences, List.countP_cons]
  simp [occurrences]

theorem lookup_eq_none (key : String) (members : List (String × Json)) :
    lookup key members = none ↔ occurrences key members = 0 := by
  induction members with
  | nil => exact ⟨fun _ => rfl, fun _ => rfl⟩
  | cons member members ih =>
    obtain ⟨name, j⟩ := member
    rw [lookup_cons, occurrences_cons, Option.or_eq_none_iff, ih]
    by_cases same : name = key <;> simp [same]

theorem mem_of_lookup {key : String} {members : List (String × Json)} {j : Json}
    (found : lookup key members = some j) : (key, j) ∈ members := by
  unfold lookup at found
  obtain ⟨⟨name, value⟩, here, rfl⟩ := Option.map_eq_some_iff.mp found
  have named := List.find?_some here
  obtain rfl : name = key := by simpa using named
  exact List.mem_reverse.mp (List.mem_of_find?_eq_some here)

end Json

namespace Fields

def keys {σ τ : Type} : Fields σ τ → List String
  | .none => []
  | .cons key _ _ more => key :: more.keys

def held {α : Type} (fallback : Option α) (shape : Shape α) : Option Json → Option α
  | some j => shape.ofJson? j
  | Option.none => fallback

def ofLookup {σ τ : Type} : Fields σ τ → (String → Option Json) → Option σ
  | .none, _ => some ()
  | .cons key fallback shape more, find =>
    (held fallback shape (find key)).bind fun value =>
      (more.ofLookup find).map fun values => (value, values)

end Fields

namespace Shape

section

variable {α β σ τ υ : Type}

def takeSlot (key : String) (read : υ → Option α) (slot : Option α) (member : String × υ) :
    Option (Option α) :=
  if member.1 = key then if slot.isSome then none else (read member.2).map some else some slot

private theorem foldlM_pair {f : σ → β → Option σ} {g : τ → β → Option τ}
    {h : σ × τ → β → Option (σ × τ)}
    (both : ∀ s t b, h (s, t) b = (f s b).bind fun s => (g t b).map fun t => (s, t))
    (list : List β) (s : σ) (t : τ) :
    list.foldlM h (s, t) = (list.foldlM f s).bind fun s => (list.foldlM g t).map fun t => (s, t) := by
  induction list generalizing s t with
  | nil => rfl
  | cons b list ih =>
    simp only [List.foldlM_cons, both, Option.bind_eq_bind]
    cases f s b with
    | none => rfl
    | some s =>
      cases g t b with
      | none => cases list.foldlM f s <;> simp
      | some t => simpa using ih s t

abbrev under (key : String) (members : List (String × υ)) : List (String × υ) :=
  members.filter fun member => member.1 = key

theorem foldlM_takeSlot_some (key : String) (read : υ → Option α) (a : α)
    (members : List (String × υ)) :
    members.foldlM (takeSlot key read) (some a) =
      match under key members with
      | [] => some (some a)
      | _ => none := by
  induction members with
  | nil => rfl
  | cons member members ih =>
    rw [List.foldlM_cons, takeSlot]
    by_cases same : member.1 = key
    · simp [under, same]
    · simpa [under, same] using ih

/-- One field takes the value of its key, and fails if there are two. -/
theorem foldlM_takeSlot (key : String) (read : υ → Option α) (members : List (String × υ)) :
    members.foldlM (takeSlot key read) none =
      match under key members with
      | [] => some none
      | [member] => (read member.2).map some
      | _ => none := by
  induction members with
  | nil => rfl
  | cons member members ih =>
    rw [List.foldlM_cons, takeSlot]
    by_cases same : member.1 = key
    · have first : under key (member :: members) = member :: under key members := by
        simp [under, same]
      rw [if_pos same, first]
      cases taken : read member.2 with
      | none => cases under key members <;> simp [taken]
      | some a =>
        simp only [Option.isSome_none, Bool.false_eq_true, if_false, Option.map_some,
          Option.bind_eq_bind, Option.bind_some, foldlM_takeSlot_some]
        cases under key members <;> simp [taken]
    · have later : under key (member :: members) = under key members := by
        simp [under, same]
      rw [if_neg same, later]
      exact ih

section

variable (read : (α : Type) → Shape α → υ → Option α)

def takeField {σ τ : Type} : Fields σ τ → τ → String × υ → Option τ
  | .none, (), _ => some ()
  | .cons key _ shape more, (slot, slots), member =>
    (takeSlot key (read _ shape) slot member).bind fun slot =>
      (takeField more slots member).map fun slots => (slot, slots)

/-- What a record holds, field by field. A field stands for its fallback where no member has its
key, and cannot be read if two of them have. -/
def ofMembers {σ τ : Type} : Fields σ τ → List (String × υ) → Option σ
  | .none, _ => some ()
  | .cons key fallback shape more, members =>
    (match under key members with
      | [] => fallback
      | [member] => read _ shape member.2
      | _ => none).bind fun value =>
        (ofMembers more members).map fun values => (value, values)

end

theorem finish_cons {key : String} {fallback : Option α} {shape : Shape α} {more : Fields σ τ}
    (slot : Option α) (slots : Option τ) :
    ((slots.map fun slots => (slot, slots)).bind fun slots =>
      ((Fields.cons key fallback shape more).finish slots).toOption) =
      (slot <|> fallback).bind fun value =>
        (slots.bind fun slots => (more.finish slots).toOption).map fun values => (value, values) := by
  cases slots with
  | none => cases slot <|> fallback <;> rfl
  | some slots =>
    simp only [Option.map_some, Option.bind_some, Fields.finish]
    cases slot <|> fallback with
    | none => rfl
    | some value => exact toOption_map _ _

/-- The fields of a record are read by their keys, in whatever order the members stand. -/
theorem foldlM_takeField (read : (α : Type) → Shape α → υ → Option α) {σ τ : Type} :
    (fields : Fields σ τ) → (members : List (String × υ)) →
    ((members.foldlM (takeField read fields) fields.unread).bind fun slots =>
      (fields.finish slots).toOption) = ofMembers read fields members
  | .none, members => by
    have kept : members.foldlM (takeField read Fields.none) () = some () := by
      induction members with
      | nil => rfl
      | cons member members ih =>
        rw [List.foldlM_cons]
        exact ih
    simp [Fields.unread, kept, ofMembers, Fields.finish, Except.toOption]
  | .cons key fallback shape more, members => by
    have others := foldlM_takeField read more members
    rw [Fields.unread, foldlM_pair (fun _ _ _ => rfl), foldlM_takeSlot, ofMembers]
    split
    · simp only [Option.bind_some, finish_cons, others]
      rfl
    · next member _ =>
      cases read _ shape member.2 with
      | none => rfl
      | some a =>
        simp only [Option.map_some, Option.bind_some, finish_cons, others]
        rfl
    · rfl

theorem takeEntry_unknown {σ τ : Type} : (fields : Fields σ τ) → (slots : τ) → {key : String} →
    key ∉ fields.keys → (j : Json) → takeEntry fields slots (key, j) = some slots
  | .none, (), _, _, _ => by rw [takeEntry]
  | .cons name _ shape more, (slot, slots), key, unknown, j => by
    rw [Fields.keys, List.mem_cons, not_or] at unknown
    rw [takeEntry, if_neg unknown.1, takeEntry_unknown more slots unknown.2 j]
    rfl

theorem takeEntry_eq {σ τ : Type} : (fields : Fields σ τ) → fields.keys.Nodup → (slots : τ) →
    (member : String × Json) →
    takeEntry fields slots member = takeField (fun _ => ofJson?) fields slots member
  | .none, _, (), _ => by
    rw [takeEntry]
    rfl
  | .cons key _ shape more, nodup, (slot, slots), (name, j) => by
    rw [Fields.keys, List.nodup_cons] at nodup
    rw [takeEntry, takeField, takeSlot, ← takeEntry_eq more nodup.2]
    by_cases same : name = key
    · subst same
      simp only [if_true, takeEntry_unknown more slots nodup.1 j, Option.map_some]
      split
      · rfl
      · cases shape.ofJson? j <;> rfl
    · simp only [if_neg same]
      rfl

theorem ofMembers_json {σ τ : Type} : (fields : Fields σ τ) → (members : List (String × Json)) →
    ofMembers (fun _ => ofJson?) fields members =
      if ∃ key ∈ fields.keys, 1 < occurrences key members then none
      else fields.ofLookup fun key => lookup key members
  | .none, members => by
    simp [ofMembers, Fields.keys, Fields.ofLookup]
  | .cons key fallback shape more, members => by
    have counted : occurrences key members = (under key members).length :=
      List.countP_eq_length_filter
    have found : lookup key members = (under key members).getLast?.map (·.2) := by
      rw [lookup, ← List.head?_filter, List.filter_reverse, List.head?_reverse]
    rw [ofMembers, ofMembers_json more members, Fields.ofLookup, found]
    simp only [Fields.keys, List.mem_cons, exists_eq_or_imp, counted]
    rcases under key members with _ | ⟨member, _ | ⟨second, rest⟩⟩
    · simp only [List.length_nil, Nat.not_lt_zero, false_or, List.getLast?_nil, Option.map_none,
        Fields.held]
      split
      · simp
      · rfl
    · simp only [List.length_singleton, Nat.lt_irrefl, false_or, List.getLast?_singleton,
        Option.map_some, Fields.held]
      split
      · simp
      · rfl
    · simp

/-- The fields of an object that has none of their keys twice are read by their keys. -/
theorem foldlM_takeEntry {σ τ : Type} (fields : Fields σ τ) (nodup : fields.keys.Nodup)
    (members : List (String × Json)) :
    ((members.foldlM (takeEntry fields) fields.unread).bind fun slots =>
      (fields.finish slots).toOption) =
      if ∃ key ∈ fields.keys, 1 < occurrences key members then none
      else fields.ofLookup fun key => lookup key members := by
  have fold : takeEntry fields = takeField (fun _ => ofJson?) fields :=
    funext fun slots => funext (takeEntry_eq fields nodup slots)
  rw [fold, foldlM_takeField, ofMembers_json]

theorem ofJson?_object {name : String} {fields : Fields σ τ} {build : σ → α} {parts : α → σ}
    (nodup : fields.keys.Nodup) (members : List (String × Json)) :
    (Shape.record name fields build parts).ofJson? (.object members) =
      if ∃ key ∈ fields.keys, 1 < occurrences key members then none
      else (fields.ofLookup fun key => lookup key members).map build := by
  rw [ofJson?, record?, foldlM_takeEntry fields nodup]
  split <;> rfl

end

mutual

/-- Somewhere in the tree an object that is read as a record has one of the record's keys twice. -/
def Repeats {α : Type} : Shape α → Json → Prop
  | .optional shape, j => shape.Repeats j
  | .nullable shape, j => shape.Repeats j
  | .nullAs _ shape, j => shape.Repeats j
  | .sequence shape, j => ∃ items, j = .list items ∧ ∃ item ∈ items, shape.Repeats item
  | .record _ fields _ _, j => ∃ members, j = .object members ∧
      ((∃ key ∈ fields.keys, 1 < occurrences key members) ∨ FieldRepeats fields members)
  | .word, _ | .halfWord, _ | .natural _ _, _ | .real, _ | .text, _ | .flag, _ | .instant, _
  | .choice _, _ | .tree, _ => False

def FieldRepeats {σ τ : Type} : Fields σ τ → List (String × Json) → Prop
  | .none, _ => False
  | .cons key _ shape more, members =>
    (∃ j, lookup key members = some j ∧ shape.Repeats j) ∨ FieldRepeats more members

end

theorem not_repeats_null {α : Type} : (shape : Shape α) → ¬shape.Repeats .null
  | .optional shape => by rw [Repeats]; exact not_repeats_null shape
  | .nullable shape => by rw [Repeats]; exact not_repeats_null shape
  | .nullAs _ shape => by rw [Repeats]; exact not_repeats_null shape
  | .sequence _ => by simp [Repeats]
  | .record .. => by simp [Repeats]
  | .word | .halfWord | .natural .. | .real | .text | .flag | .instant | .choice _ | .tree => by
    simp [Repeats]

end Shape

namespace Fields

variable {α σ τ : Type} {key : String} {fallback : Option α} {shape : Shape α} {more : Fields σ τ}
  {find : String → Option Json}

theorem ofLookup_cons_eq_none : (Fields.cons key fallback shape more).ofLookup find = Option.none ↔
    held fallback shape (find key) = Option.none ∨ more.ofLookup find = Option.none := by
  rw [ofLookup]
  cases held fallback shape (find key) <;> simp

theorem ofLookup_cons_eq_some {a : α} {values : σ} :
    (Fields.cons key fallback shape more).ofLookup find = some (a, values) ↔
      held fallback shape (find key) = some a ∧ more.ofLookup find = some values := by
  rw [ofLookup]
  cases held fallback shape (find key) with
  | none => simp
  | some value =>
    simp only [Option.bind_some, Option.map_eq_some_iff, Prod.mk.injEq, Option.some.injEq]
    constructor
    · rintro ⟨_, read, rfl, rfl⟩
      exact ⟨rfl, read⟩
    · rintro ⟨rfl, read⟩
      exact ⟨values, read, rfl, rfl⟩

end Fields

end NotificationRelay
