import NotificationRelay.Message.Schema
import NotificationRelay.Proofs.Json.Sound
import NotificationRelay.Proofs.Shape.Record
import NotificationRelay.Proofs.Time

/-! What a schema promises to the reader of a message. A rule grants a shape if every value that
passes the rule can be read in the shape, but for values with a key twice and for a gap that is
named. -/
namespace NotificationRelay

open Json

namespace Members

def entries : Members → List (String × Bool × Rule)
  | .none => []
  | .cons key required rule more => (key, required, rule) :: more.entries

@[simp]
theorem entries_none : Members.none.entries = [] := rfl

@[simp]
theorem entries_required (key : String) (rule : Rule) (more : Members) :
    (Members.required key rule more).entries = (key, true, rule) :: more.entries := rfl

@[simp]
theorem entries_optional (key : String) (rule : Rule) (more : Members) :
    (Members.optional key rule more).entries = (key, false, rule) :: more.entries := rfl

theorem check_cons {path : Path} {members : List (String × Json)} {key : String} {required : Bool}
    {rule : Rule} {more : Members}
    (ok : (Members.cons key required rule more).check path members = .ok ()) :
    ((∀ j, present key members = some j → rule.check (path ++ [.key key]) j = .ok ()) ∧
      (required → present key members ≠ Option.none)) ∧ more.check path members = .ok () := by
  rw [Members.check] at ok
  split at ok
  · rename_i value found
    obtain ⟨_, passed, others⟩ := bind_success ok
    refine ⟨⟨?_, ?_⟩, others⟩
    · intro j same
      rw [found] at same
      exact Option.some.inj same ▸ passed
    · simp [found]
  · rename_i missing
    split at ok
    · cases ok
    · rename_i optional
      exact ⟨⟨by simp [missing], fun must => absurd must optional⟩, ok⟩

theorem check_entry {path : Path} {members : List (String × Json)} {key : String} {required : Bool}
    {rule : Rule} : {rules : Members} → rules.check path members = .ok () →
    (key, required, rule) ∈ rules.entries →
    (∀ j, present key members = some j → rule.check (path ++ [.key key]) j = .ok ()) ∧
      (required → present key members ≠ Option.none)
  | .none, _, among => nomatch among
  | .cons name must first more, ok, among => by
    obtain ⟨here, others⟩ := check_cons ok
    rw [entries] at among
    rcases List.mem_cons.mp among with same | later
    · cases same
      exact here
    · exact check_entry others later

end Members

theorem eq_null {j : Json} (kind : j.isNull) : j = .null := by
  cases j with
  | null => rfl
  | _ => cases kind

theorem present_eq_some {key : String} {members : List (String × Json)} {j : Json} :
    present key members = some j ↔ lookup key members = some j ∧ j.isNull = false := by
  rw [present, Option.filter_eq_some_iff]
  simp

namespace Rule

/-- What passes the rule is read in the shape, unless a key comes twice in it or `gap` is so. -/
def Grants {α : Type} (rule : Rule) (shape : Shape α) (gap : Json → Prop) : Prop :=
  ∀ ⦃path : Path⦄ ⦃j : Json⦄, j.Sound → j.isNull = false → rule.check path j = .ok () →
    (shape.ofJson? j = none ↔ shape.Repeats j ∨ gap j)

theorem Grants.congr {α : Type} {rule : Rule} {shape : Shape α} {gap gap' : Json → Prop}
    (grants : rule.Grants shape gap) (same : ∀ j, gap j ↔ gap' j) : rule.Grants shape gap' :=
  fun _ _ sound kind ok => (grants sound kind ok).trans (or_congr_right (same _))

end Rule

namespace Members

variable {α σ τ : Type}

def Grants (rules : Members) (fields : Fields σ τ) (gap : List (String × Json) → Prop) : Prop :=
  ∀ ⦃path : Path⦄ ⦃members : List (String × Json)⦄, (∀ m ∈ members, m.2.Sound) →
    rules.check path members = .ok () →
    ((fields.ofLookup fun key => lookup key members) = Option.none ↔
      Shape.FieldRepeats fields members ∨ gap members)

theorem grants_none (rules : Members) : rules.Grants .none fun _ => False := by
  intro path members sound ok
  simp [Fields.ofLookup, Shape.FieldRepeats]

section

variable {rules : Members} {key : String} {shape : Shape α} {more : Fields σ τ}
  {gap : Json → Prop} {gaps : List (String × Json) → Prop}

def Judges (rules : Members) (key : String) (shape : Shape α) (gap : Json → Prop) : Prop :=
  ∀ ⦃path : Path⦄ ⦃members : List (String × Json)⦄ ⦃j : Json⦄, (∀ m ∈ members, m.2.Sound) →
    rules.check path members = .ok () → present key members = some j →
    (shape.ofJson? j = Option.none ↔ shape.Repeats j ∨ gap j)

theorem judges_of_rule {rule : Rule} (ruled : ∃ required, (key, required, rule) ∈ rules.entries)
    (grants : rule.Grants shape gap) : rules.Judges key shape gap := by
  intro path members j sound ok found
  obtain ⟨required, ruled⟩ := ruled
  have held := present_eq_some.mp found
  exact grants (sound _ (mem_of_lookup held.1)) held.2 ((check_entry ok ruled).1 j found)

theorem judges_unruled : rules.Judges key .text fun j => isText j = false := by
  intro path members j _ _ _
  cases j <;> simp [Shape.Repeats, text?, isText]

private theorem grants_cons {fallback : Option α}
    (slot : ∀ ⦃path : Path⦄ ⦃members : List (String × Json)⦄, (∀ m ∈ members, m.2.Sound) →
      rules.check path members = .ok () →
      (Fields.held fallback shape (lookup key members) = Option.none ↔
        (∃ j, lookup key members = some j ∧ shape.Repeats j) ∨
          ∃ j, present key members = some j ∧ gap j))
    (others : rules.Grants more gaps) :
    rules.Grants (.cons key fallback shape more) fun members =>
      (∃ j, present key members = some j ∧ gap j) ∨ gaps members := by
  intro path members sound ok
  rw [Fields.ofLookup_cons_eq_none, slot sound ok, others sound ok, Shape.FieldRepeats,
    or_or_or_comm]

theorem grants_required {rule : Rule} (ruled : (key, true, rule) ∈ rules.entries)
    (first : rule.Grants shape gap) (others : rules.Grants more gaps) :
    rules.Grants (.required key shape more) fun members =>
      (∃ j, present key members = some j ∧ gap j) ∨ gaps members := by
  refine grants_cons (fun path members sound ok => ?_) others
  obtain ⟨j, found⟩ := Option.ne_none_iff_exists'.mp ((check_entry ok ruled).2 rfl)
  have held := present_eq_some.mp found
  rw [found, held.1, Fields.held, judges_of_rule ⟨true, ruled⟩ first sound ok found]
  simp

/-- Null and absence are read as something by the shape around. -/
private theorem grants_wrapped {β : Type} {outer : Shape β} {fallback : β}
    (null : outer.ofJson? .null ≠ Option.none)
    (same : ∀ j, j.isNull = false → (outer.ofJson? j = Option.none ↔ shape.ofJson? j = Option.none))
    (inside : ∀ j, outer.Repeats j ↔ shape.Repeats j) (first : rules.Judges key shape gap)
    (others : rules.Grants more gaps) :
    rules.Grants (.cons key (some fallback) outer more) fun members =>
      (∃ j, present key members = some j ∧ gap j) ∨ gaps members := by
  refine grants_cons (fun path members sound ok => ?_) others
  cases held : lookup key members with
  | none =>
    have missing : present key members = Option.none := by rw [present, held]; rfl
    simp [Fields.held, missing]
  | some j =>
    cases kind : j.isNull with
    | true =>
      have missing : present key members = Option.none := by rw [present, held]; simp [kind]
      obtain rfl := eq_null kind
      simp [Fields.held, missing, null, Shape.not_repeats_null]
    | false =>
      have found : present key members = some j := present_eq_some.mpr ⟨held, kind⟩
      rw [Fields.held, same j kind, first sound ok found, found]
      simp [inside]

theorem optional?_of_not_null {f : Json → Option α} {j : Json} (kind : j.isNull = false) :
    j.optional? f = (f j).map some := by
  cases j with
  | null => cases kind
  | _ => rfl

theorem grants_optional (first : rules.Judges key shape gap) (others : rules.Grants more gaps) :
    rules.Grants (.optional key shape more) fun members =>
      (∃ j, present key members = some j ∧ gap j) ∨ gaps members := by
  refine grants_wrapped ?_ (fun j kind => ?_) (fun j => by rw [Shape.Repeats]) first others
  · simp [optional?]
  · simp [optional?_of_not_null kind]

theorem grants_lenient {given : α} (first : rules.Judges key shape gap)
    (others : rules.Grants more gaps) :
    rules.Grants (.lenient key given shape more) fun members =>
      (∃ j, present key members = some j ∧ gap j) ∨ gaps members := by
  refine grants_wrapped ?_ (fun j kind => ?_) (fun j => by rw [Shape.Repeats]) first others
  · simp [optional?]
  · simp [optional?_of_not_null kind]

end

end Members

namespace Rule

variable {α σ τ : Type}

theorem checkThat_success {accepted : Bool} {path : Path} {reason : String}
    (ok : checkThat accepted path reason = .ok ()) : accepted = true := by
  unfold checkThat at ok
  split at ok
  · assumption
  · cases ok

theorem natural_grants_word : Rule.natural.Grants .word fun _ => False := by
  intro path j sound _ ok
  rw [check] at ok
  have kind := checkThat_success ok
  cases sound with
  | @number n sound =>
    cases n with
    | natural n =>
      have within : n ≤ Scan.greatestWord := sound
      simp [Shape.Repeats, natural?, within]
    | negative n => cases kind
    | real x => cases kind
  | _ => cases kind

theorem number_grants_real : Rule.number.Grants .real fun _ => False := by
  intro path j _ _ ok
  rw [check] at ok
  have kind := checkThat_success ok
  cases j with
  | number n => simp [Shape.Repeats, number?]
  | _ => cases kind

theorem flag_grants_flag : Rule.flag.Grants .flag fun _ => False := by
  intro path j _ _ ok
  rw [check] at ok
  have kind := checkThat_success ok
  cases j with
  | flag b => simp [Shape.Repeats, flag?]
  | _ => cases kind

theorem text_grants_text : Rule.text.Grants .text fun _ => False := by
  intro path j _ _ ok
  rw [check] at ok
  have kind := checkThat_success ok
  cases j with
  | text s => simp [Shape.Repeats, text?]
  | _ => cases kind

theorem name_success {path : Path} {j : Json} (ok : Rule.name.check path j = .ok ()) :
    ∃ s, j = .text s ∧ s.isEmpty = false := by
  cases j with
  | text s =>
    rw [check] at ok
    split at ok
    · cases ok
    · rename_i some
      exact ⟨s, rfl, by simpa using some⟩
  | _ => simp [check] at ok

theorem name_grants_text : Rule.name.Grants .text fun _ => False := by
  intro path j _ _ ok
  obtain ⟨s, rfl, _⟩ := name_success ok
  simp [Shape.Repeats, text?]

theorem timestamp_grants_instant : Rule.timestamp.Grants .instant fun _ => False := by
  intro path j _ _ ok
  rw [check] at ok
  cases j with
  | text s =>
    rw [checkTimestamp] at ok
    split at ok
    · rename_i t read
      have lenient := Time.parseLenient_of_parse read
      simp [Shape.Repeats, text?, lenient, Except.toOption]
    · cases ok
  | _ => cases ok

theorem word_grants_choice (vocabulary : Vocabulary α) (refuse : Path → Json → Violation) :
    (Rule.word (@Vocabulary.words α vocabulary) refuse).Grants (.choice vocabulary)
      fun _ => False := by
  intro path j _ _ ok
  cases j with
  | text s =>
    rw [check] at ok
    split at ok
    · rename_i known
      obtain ⟨a, among, rfl⟩ := List.mem_map.mp known
      have found : @Vocabulary.find? α vocabulary (Vocabulary.word a) ≠ none := by
        intro missing
        have other := List.find?_eq_none.mp missing a among
        simp at other
      simp [Shape.Repeats, word?, found]
    · cases ok
  | _ => simp [check] at ok

theorem texts_grants_texts : Rule.texts.Grants (.sequence .text) fun _ => False := by
  intro path j _ _ ok
  rw [check] at ok
  cases j with
  | list items =>
    rw [checkTexts] at ok
    split at ok
    · cases ok
    · rename_i all
      have texts := List.findIdx?_eq_none_iff.mp all
      have read : items.mapM (fun j => j.text?) ≠ none := by
        intro failed
        obtain ⟨j, among, unread⟩ := mapM_eq_none.mp failed
        have kind := texts j among
        cases j with
        | text s => cases unread
        | _ => cases kind
      simp [Shape.Repeats, items?, read]
  | _ => simp [checkTexts] at ok

theorem object_success {path : Path} {rules : Members} {j : Json}
    (ok : (Rule.object rules).check path j = .ok ()) :
    ∃ members, j = .object members ∧ rules.check path members = .ok () := by
  rw [check] at ok
  cases j with
  | object members => exact ⟨members, rfl, by rw [Members.checkObject] at ok; exact ok⟩
  | _ => simp [Members.checkObject] at ok

theorem object_grants_record {rules : Members} {name : String} {fields : Fields σ τ} {build : σ → α}
    {parts : α → σ} {gap : List (String × Json) → Prop} (nodup : fields.keys.Nodup)
    (grants : rules.Grants fields gap) :
    (Rule.object rules).Grants (.record name fields build parts)
      fun j => ∃ members, j = .object members ∧ gap members := by
  intro path j sound _ ok
  obtain ⟨members, rfl, passed⟩ := object_success ok
  have read := grants sound.members passed
  rw [Shape.ofJson?_object nodup, Shape.Repeats]
  by_cases twice : ∃ key ∈ fields.keys, 1 < occurrences key members
  · simp [twice]
  · rw [if_neg twice, Option.map_eq_none_iff, read]
    constructor
    · rintro (repeats | left)
      · exact .inl ⟨members, rfl, .inr repeats⟩
      · exact .inr ⟨members, rfl, left⟩
    · rintro (⟨_, same, here | inside⟩ | ⟨_, same, left⟩)
      · cases same
        exact absurd here twice
      · cases same
        exact .inl inside
      · cases same
        exact .inr left

theorem object_grants_whole {rules : Members} {name : String} {fields : Fields σ τ} {build : σ → α}
    {parts : α → σ} {gap : List (String × Json) → Prop} (nodup : fields.keys.Nodup)
    (grants : rules.Grants fields gap) (whole : ∀ members, ¬gap members) :
    (Rule.object rules).Grants (.record name fields build parts) fun _ => False := by
  intro path j sound kind ok
  rw [object_grants_record nodup grants sound kind ok]
  simp [whole]

/-- The items are checked in order, each at its own place. -/
theorem objects_success {path : Path} {rules : Members} {j : Json}
    (ok : (Rule.objects rules).check path j = .ok ()) :
    ∃ items, j = .list items ∧
      ∀ item ∈ items, ∃ place, (Rule.object rules).check place item = .ok () := by
  cases j with
  | list items =>
    rw [check] at ok
    refine ⟨items, rfl, fun item among => ?_⟩
    rw [← List.zipIdx_map_fst 0 items] at among
    obtain ⟨⟨item, i⟩, indexed, rfl⟩ := List.mem_map.mp among
    exact ⟨_, by rw [check]; exact forM_success ok _ indexed⟩
  | _ => simp [check] at ok

theorem objects_grants_sequence {rules : Members} {shape : Shape α} {gap : Json → Prop}
    (grants : (Rule.object rules).Grants shape gap) :
    (Rule.objects rules).Grants (.sequence shape)
      fun j => ∃ items, j = .list items ∧ ∃ item ∈ items, gap item := by
  intro path j sound _ ok
  obtain ⟨items, rfl, passed⟩ := objects_success ok
  have each : ∀ item ∈ items, (shape.ofJson? item = none ↔ shape.Repeats item ∨ gap item) := by
    intro item among
    obtain ⟨place, ok⟩ := passed item among
    obtain ⟨members, rfl, _⟩ := object_success ok
    exact grants (sound.items _ among) rfl ok
  simp only [Shape.ofJson?, items?, Option.bind_some, mapM_eq_none, Shape.Repeats, list.injEq,
    exists_eq_left']
  constructor
  · rintro ⟨item, among, unread⟩
    rcases (each item among).mp unread with repeats | left
    · exact .inl ⟨item, among, repeats⟩
    · exact .inr ⟨item, among, left⟩
  · rintro (⟨item, among, repeats⟩ | ⟨item, among, left⟩)
    · exact ⟨item, among, (each item among).mpr (.inl repeats)⟩
    · exact ⟨item, among, (each item among).mpr (.inr left)⟩

end Rule

end NotificationRelay
