import Mathlib.Data.List.Forall2
import NotificationRelay.Proofs.Message.Schema

/-! Where the values of a message that is read are written. A rule traces a shape if every value of
the shape that is read from a tree which passes the rule is written there in the one way of its
kind. -/
namespace NotificationRelay

open Json

namespace Written

variable {α : Type}

def word (n : UInt64) (j : Json) : Prop := j = .number (.natural n.toNat)

def real (x : Binary64) (j : Json) : Prop := ∃ n, j = .number n ∧ Shape.toReal n = x

def text (s : String) (j : Json) : Prop := j = .text s

def flag (b : Bool) (j : Json) : Prop := j = .flag b

def instant (t : Time.Instant) (j : Json) : Prop := ∃ s, j = .text s ∧ Time.parse s = .ok t

def choice [Vocabulary α] (a : α) (j : Json) : Prop := j = .text (Vocabulary.word a)

def list (written : α → Json → Prop) (items : List α) (j : Json) : Prop :=
  ∃ values, j = .list values ∧ List.Forall₂ written items values

def object (found : α → List (String × Json) → Prop) (a : α) (j : Json) : Prop :=
  ∃ members, j = .object members ∧ found a members

theorem of_object {found : α → List (String × Json) → Prop} {a : α}
    {members : List (String × Json)} (written : object found a (.object members)) :
    found a members := by
  obtain ⟨_, same, here⟩ := written
  cases same
  exact here

def required (key : String) (written : α → Json → Prop) (a : α) (members : List (String × Json)) :
    Prop :=
  ∃ j, present key members = some j ∧ written a j

def lenient (key : String) (given : α) (written : α → Json → Prop) (a : α)
    (members : List (String × Json)) : Prop :=
  match present key members with
  | some j => written a j
  | none => a = given

theorem lenient_cases {key : String} {given a : α} {good : α → Prop}
    {members : List (String × Json)} (found : lenient key given (fun a _ => good a) a members) :
    good a ∨ a = given := by
  unfold lenient at found
  split at found
  · exact .inl found
  · exact .inr found

def optional (key : String) (written : α → Json → Prop) (a? : Option α)
    (members : List (String × Json)) : Prop :=
  lenient key none (fun a? j => ∃ a, a? = some a ∧ written a j) a? members

end Written

/-- A value of the shape that is read from a tree which passes the rule is written there. -/
def Rule.Traces {α : Type} (rule : Rule) (shape : Shape α) (written : α → Json → Prop) : Prop :=
  ∀ ⦃path : Path⦄ ⦃j : Json⦄ ⦃a : α⦄, j.Sound → j.isNull = false → rule.check path j = .ok () →
    shape.ofJson? j = some a → written a j

namespace Members

variable {α β σ τ : Type}

def Traces (rules : Members) (fields : Fields σ τ) (found : σ → List (String × Json) → Prop) :
    Prop :=
  ∀ ⦃path : Path⦄ ⦃members : List (String × Json)⦄ ⦃values : σ⦄, (∀ m ∈ members, m.2.Sound) →
    rules.check path members = .ok () →
    (fields.ofLookup fun key => lookup key members) = some values → found values members

def Locates (rules : Members) (key : String) (shape : Shape α) (written : α → Json → Prop) :
    Prop :=
  ∀ ⦃path : Path⦄ ⦃members : List (String × Json)⦄ ⦃j : Json⦄ ⦃a : α⦄,
    (∀ m ∈ members, m.2.Sound) → rules.check path members = .ok () →
    present key members = some j → shape.ofJson? j = some a → written a j

variable {rules : Members} {key : String} {shape : Shape α} {more : Fields σ τ}
  {written : α → Json → Prop} {found : σ → List (String × Json) → Prop} {rule : Rule}

theorem locates_of_rule (ruled : ∃ required, (key, required, rule) ∈ rules.entries)
    (traces : rule.Traces shape written) : rules.Locates key shape written := by
  intro path members j a sound ok there read
  obtain ⟨required, ruled⟩ := ruled
  obtain ⟨held, kind⟩ := present_eq_some.mp there
  exact traces (sound _ (mem_of_lookup held)) kind ((check_entry ok ruled).1 j there) read

theorem locates_unruled : rules.Locates key .text Written.text := by
  intro path members j s _ _ _ read
  cases j with
  | text t =>
    cases read
    rfl
  | _ => cases read

theorem traces_none : rules.Traces .none fun _ _ => True := by
  intro path members values _ _ _
  trivial

theorem traces_cons {fallback : Option β} {outer : Shape β}
    (slot : β → List (String × Json) → Prop)
    (first : ∀ ⦃path : Path⦄ ⦃members : List (String × Json)⦄ ⦃b : β⦄,
      (∀ m ∈ members, m.2.Sound) → rules.check path members = .ok () →
      Fields.held fallback outer (lookup key members) = some b → slot b members)
    (others : rules.Traces more found) :
    rules.Traces (.cons key fallback outer more) fun values members =>
      slot values.1 members ∧ found values.2 members := by
  rintro path members ⟨b, values⟩ sound ok read
  obtain ⟨here, later⟩ := Fields.ofLookup_cons_eq_some.mp read
  exact ⟨first sound ok here, others sound ok later⟩

theorem traces_required (ruled : (key, true, rule) ∈ rules.entries)
    (first : rule.Traces shape written) (others : rules.Traces more found) :
    rules.Traces (.required key shape more) fun values members =>
      Written.required key written values.1 members ∧ found values.2 members := by
  refine traces_cons _ (fun path members a sound ok read => ?_) others
  obtain ⟨j, there⟩ := Option.ne_none_iff_exists'.mp ((check_entry ok ruled).2 rfl)
  rw [(present_eq_some.mp there).1] at read
  exact ⟨j, there, locates_of_rule ⟨true, ruled⟩ first sound ok there read⟩

/-- Null and absence are read as the fallback. -/
private theorem traces_wrapped {outer : Shape β} {fallback : β} {wrap : α → β}
    {inside : β → Json → Prop} (null : outer.ofJson? .null = some fallback)
    (same : ∀ j, j.isNull = false → outer.ofJson? j = (shape.ofJson? j).map wrap)
    (wrapped : ∀ a j, written a j → inside (wrap a) j)
    (first : rules.Locates key shape written) (others : rules.Traces more found) :
    rules.Traces (.cons key (some fallback) outer more) fun values members =>
      Written.lenient key fallback inside values.1 members ∧ found values.2 members := by
  refine traces_cons _ (fun path members b sound ok read => ?_) others
  unfold Written.lenient
  cases there : present key members with
  | some j =>
    obtain ⟨held, kind⟩ := present_eq_some.mp there
    rw [held, Fields.held, same j kind] at read
    obtain ⟨a, inner, rfl⟩ := Option.map_eq_some_iff.mp read
    exact wrapped a j (first sound ok there inner)
  | none =>
    cases held : lookup key members with
    | none =>
      rw [held] at read
      exact (Option.some.inj read).symm
    | some j =>
      have kind : j.isNull = true := by
        rw [present, held] at there
        simpa using there
      rw [held, Fields.held, eq_null kind, null] at read
      exact (Option.some.inj read).symm

theorem traces_lenient {given : α} (first : rules.Locates key shape written)
    (others : rules.Traces more found) :
    rules.Traces (.lenient key given shape more) fun values members =>
      Written.lenient key given written values.1 members ∧ found values.2 members := by
  refine traces_wrapped rfl (fun j kind => ?_) (fun _ _ here => here) first others
  rw [Shape.ofJson?, optional?_of_not_null kind, Option.map_map]
  rfl

theorem traces_optional (first : rules.Locates key shape written)
    (others : rules.Traces more found) :
    rules.Traces (.optional key shape more) fun values members =>
      Written.optional key written values.1 members ∧ found values.2 members := by
  refine traces_wrapped rfl (fun j kind => ?_) (fun a _ here => ⟨a, rfl, here⟩) first others
  rw [Shape.ofJson?, optional?_of_not_null kind]

end Members

theorem mapM_forall₂ {α β : Type} {related : β → α → Prop} {f : α → Option β} {items : List α}
    {values : List β} (each : ∀ a ∈ items, ∀ b, f a = some b → related b a)
    (ok : items.mapM f = some values) : List.Forall₂ related values items := by
  induction items generalizing values with
  | nil =>
    cases ok
    exact .nil
  | cons a items ih =>
    rw [List.mapM_cons] at ok
    obtain ⟨b, found, ok⟩ := Option.bind_eq_some_iff.mp ok
    obtain ⟨others, later, same⟩ := Option.bind_eq_some_iff.mp ok
    cases same
    obtain ⟨first, rest⟩ := List.forall_mem_cons.mp each
    exact .cons (first b found) (ih rest later)

namespace Rule

variable {α σ τ : Type}

theorem natural_traces_word : Rule.natural.Traces .word Written.word := by
  intro path j n _ _ _ read
  obtain ⟨m, natural, rfl⟩ := Option.map_eq_some_iff.mp read
  cases j with
  | number k =>
    cases k with
    | natural k =>
      obtain ⟨within, rfl⟩ := Option.ite_some_none_eq_some.mp natural
      have small : k < UInt64.size := Nat.lt_of_le_of_lt within (by decide)
      rw [Written.word, UInt64.toNat_ofNat_of_lt' small]
    | _ => cases natural
  | _ => cases natural

theorem number_traces_real : Rule.number.Traces .real Written.real := by
  intro path j x _ _ _ read
  cases j with
  | number n => exact ⟨n, rfl, Option.some.inj read⟩
  | _ => cases read

theorem flag_traces_flag : Rule.flag.Traces .flag Written.flag := by
  intro path j b _ _ _ read
  cases j with
  | flag c => exact congrArg Json.flag (Option.some.inj read)
  | _ => cases read

theorem traces_text (rule : Rule) : rule.Traces .text Written.text := by
  intro path j s _ _ _ read
  cases j with
  | text t => exact congrArg Json.text (Option.some.inj read)
  | _ => cases read

/-- The lenient reader finds the instant that the check has found. -/
theorem timestamp_traces_instant : Rule.timestamp.Traces .instant Written.instant := by
  intro path j t _ _ ok read
  rw [check] at ok
  cases j with
  | text s =>
    rw [checkTimestamp] at ok
    split at ok
    · rename_i strict parsed
      have lenient : (Time.parseLenient s).toOption = some t := read
      rw [Time.parseLenient_of_parse parsed] at lenient
      exact ⟨s, rfl, Option.some.inj lenient ▸ parsed⟩
    · cases ok
  | _ => cases ok

/-- A word that passes is a text, though the reader also takes it as a key. -/
theorem word_traces_choice [Vocabulary α] (refuse : Path → Json → Violation) :
    (Rule.word (Vocabulary.words α) refuse).Traces (.choice inferInstance)
      (Written.choice (α := α)) := by
  intro path j a _ _ ok read
  cases j with
  | text s =>
    have found : Vocabulary.find? s = some a := read
    have same := List.find?_some found
    exact congrArg Json.text (of_decide_eq_true same).symm
  | _ => simp [check] at ok

theorem texts_traces_texts : Rule.texts.Traces (.sequence .text) (Written.list Written.text) := by
  intro path j texts _ _ _ read
  cases j with
  | list items =>
    refine ⟨items, rfl, mapM_forall₂ (fun item _ s found => ?_) read⟩
    cases item with
    | text t => exact congrArg Json.text (Option.some.inj found)
    | _ => cases found
  | _ => cases read

theorem object_traces_record {rules : Members} {name : String} {fields : Fields σ τ}
    {build : σ → α} {parts : α → σ} {found : σ → List (String × Json) → Prop}
    {all : α → List (String × Json) → Prop} (nodup : fields.keys.Nodup)
    (traces : rules.Traces fields found)
    (built : ∀ values members, found values members → all (build values) members) :
    (Rule.object rules).Traces (.record name fields build parts) (Written.object all) := by
  intro path j a sound _ ok read
  obtain ⟨members, rfl, passed⟩ := object_success ok
  rw [Shape.ofJson?_object nodup] at read
  split at read
  · cases read
  · obtain ⟨values, there, rfl⟩ := Option.map_eq_some_iff.mp read
    exact ⟨members, rfl, built values members (traces sound.members passed there)⟩

theorem objects_traces_sequence {rules : Members} {shape : Shape α} {written : α → Json → Prop}
    (traces : (Rule.object rules).Traces shape written) :
    (Rule.objects rules).Traces (.sequence shape) (Written.list written) := by
  intro path j values sound _ ok read
  obtain ⟨items, rfl, passed⟩ := objects_success ok
  refine ⟨items, rfl, mapM_forall₂ (fun item there a found => ?_) read⟩
  obtain ⟨place, ok⟩ := passed item there
  obtain ⟨members, rfl, _⟩ := object_success ok
  exact traces (sound.items _ there) rfl ok found

end Rule

end NotificationRelay
