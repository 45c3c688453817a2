import NotificationRelay.Proofs.Message.Normal
import NotificationRelay.Proofs.Message.Written

/-! What a schema promises about the messages that are read. A rule assures what is good of a shape
if every value of the shape that is found in a tree which passes the rule is good. -/
namespace NotificationRelay

open Json

namespace Members

def Assures {σ τ : Type} (rules : Members) (fields : Fields σ τ) (good : σ → Prop) : Prop :=
  ∀ ⦃path : Path⦄ ⦃members : List (String × Json)⦄ ⦃values : σ⦄, (∀ m ∈ members, m.2.Sound) →
    rules.check path members = .ok () →
    (fields.ofLookup fun key => lookup key members) = some values → good values

end Members

namespace Rule

def Assures {α : Type} (rule : Rule) (shape : Shape α) (good : α → Prop) : Prop :=
  ∀ ⦃path : Path⦄ ⦃j : Json⦄ ⦃a : α⦄, j.Sound → j.isNull = false → rule.check path j = .ok () →
    shape.ofJson? j = some a → good a

end Rule

namespace Members

variable {α σ τ : Type} {rules : Members} {key : String} {fallback : Option α} {shape : Shape α}
  {more : Fields σ τ} {good : α → Prop} {goods : σ → Prop} {rule : Rule}

theorem assures_any (others : rules.Assures more goods) :
    rules.Assures (.cons key fallback shape more) fun values => goods values.2 := by
  rintro path members ⟨a, values⟩ sound ok read
  exact others sound ok (Fields.ofLookup_cons_eq_some.mp read).2

theorem assures_none : rules.Assures .none fun _ => True := by
  intro path members values _ _ _
  trivial

theorem assures_required (ruled : (key, true, rule) ∈ rules.entries)
    (first : rule.Assures shape good) (others : rules.Assures more goods) :
    rules.Assures (.required key shape more) fun values => good values.1 ∧ goods values.2 := by
  have traces : rules.Traces (.required key shape more) fun values members =>
      Written.required key (fun a _ => good a) values.1 members ∧ goods values.2 :=
    traces_required ruled first others
  intro path members values sound ok read
  obtain ⟨⟨_, _, here⟩, later⟩ := traces sound ok read
  exact ⟨here, later⟩

theorem assures_optional (ruled : ∃ required, (key, required, rule) ∈ rules.entries)
    (first : rule.Assures shape good) (others : rules.Assures more goods) :
    rules.Assures (.optional key shape more) fun values =>
      (∀ a ∈ values.1, good a) ∧ goods values.2 := by
  have traces : rules.Traces (.optional key shape more) fun values members =>
      Written.optional key (fun a _ => good a) values.1 members ∧ goods values.2 :=
    traces_optional (locates_of_rule ruled first) others
  intro path members values sound ok read
  obtain ⟨here, later⟩ := traces sound ok read
  refine ⟨fun a held => ?_, later⟩
  obtain ⟨_, same, fine⟩ | missing := Written.lenient_cases here
  · cases held.symm.trans same
    exact fine
  · cases held.symm.trans missing

theorem assures_lenient {given : α} (ruled : ∃ required, (key, required, rule) ∈ rules.entries)
    (first : rule.Assures shape good) (fallback : good given) (others : rules.Assures more goods) :
    rules.Assures (.lenient key given shape more) fun values =>
      good values.1 ∧ goods values.2 := by
  have traces : rules.Traces (.lenient key given shape more) fun values members =>
      Written.lenient key given (fun a _ => good a) values.1 members ∧ goods values.2 :=
    traces_lenient (locates_of_rule ruled first) others
  intro path members values sound ok read
  obtain ⟨here, later⟩ := traces sound ok read
  refine ⟨?_, later⟩
  obtain fine | missing := Written.lenient_cases here
  · exact fine
  · exact missing ▸ fallback

end Members

namespace Rule

variable {α σ τ : Type}

theorem number_assures_real : Rule.number.Assures .real fun x => x.isFinite := by
  intro path j x sound _ _ read
  rw [Shape.ofJson?] at read
  obtain ⟨n, number, rfl⟩ := Option.map_eq_some_iff.mp read
  cases sound with
  | @number m sound =>
    cases number
    cases n with
    | natural n => exact Binary64.isFinite_ofNat (Nat.le_trans sound Scan.greatestWord_le)
    | negative n =>
      have within : (-(n : Int)).natAbs ≤ twoTo 63 := by
        rw [Int.natAbs_neg, Int.natAbs_natCast]
        exact sound
      exact Binary64.isFinite_ofInt (Nat.le_trans within Scan.twoTo_63_le)
    | real x => exact sound
  | _ => cases number

theorem name_assures_text : Rule.name.Assures .text fun s => s.isEmpty = false := by
  intro path j s _ _ ok read
  obtain ⟨t, rfl, some⟩ := name_success ok
  cases read
  exact some

theorem object_assures_record {rules : Members} {name : String} {fields : Fields σ τ}
    {build : σ → α} {parts : α → σ} {good : α → Prop} {goods : σ → Prop} (nodup : fields.keys.Nodup)
    (assures : rules.Assures fields goods) (built : ∀ values, goods values → good (build values)) :
    (Rule.object rules).Assures (.record name fields build parts) good := by
  have traces : (Rule.object rules).Traces (.record name fields build parts)
      (Written.object fun a _ => good a) :=
    object_traces_record nodup assures fun values _ => built values
  intro path j a sound kind ok read
  obtain ⟨_, _, here⟩ := traces sound kind ok read
  exact here

theorem objects_assures_sequence {rules : Members} {shape : Shape α} {good : α → Prop}
    (assures : (Rule.object rules).Assures shape good) :
    (Rule.objects rules).Assures (.sequence shape) fun items => ∀ a ∈ items, good a := by
  intro path j values sound _ ok read
  obtain ⟨items, rfl, passed⟩ := objects_success ok
  rw [Shape.ofJson?, items?, Option.bind_some] at read
  intro a among
  obtain ⟨item, there, found⟩ := mapM_success read a among
  obtain ⟨place, ok⟩ := passed item there
  obtain ⟨members, rfl, _⟩ := object_success ok
  exact assures (sound.items _ there) rfl ok found

end Rule

section

open Members Rule

theorem progress_assures :
    (Rule.object Schema.progress).Assures Input.Progress.shape fun p => p.eta.isFinite :=
  object_assures_record (by decide)
    (assures_any <| assures_any <| assures_any <|
      assures_lenient (by simp [Schema.progress]) number_assures_real (by decide) <|
      assures_any <| assures_none)
    fun _ goods => goods.1

theorem project_assures :
    (Rule.object Schema.project).Assures Input.ProjectMessage.shape
      fun m => ∀ p ∈ m.progress, p.eta.isFinite :=
  object_assures_record (by decide)
    (assures_any <| assures_optional (by simp [Schema.project]) progress_assures <|
      assures_none)
    fun _ goods => goods.1

theorem phasePayload_assures :
    (Rule.object Schema.phasePayload).Assures (PhasePayload.shape .received)
      fun p => p.projectId.isEmpty = false :=
  object_assures_record (by decide)
    (assures_required (by simp [Schema.phasePayload]) name_assures_text <|
      assures_any <| assures_any <| assures_any <| assures_any <| assures_none)
    fun _ goods => goods.1

theorem projectPhase_assures :
    (Rule.object Schema.projectPhase).Assures (PhaseMessage.shape .received)
      fun m => m.payload.projectId.isEmpty = false :=
  object_assures_record (by decide)
    (assures_any <| assures_required (by simp [Schema.projectPhase]) phasePayload_assures <|
      assures_none)
    fun _ goods => goods.1

theorem reach_assures :
    (Rule.object Schema.reach).Assures (Reach.shape .received) fun m => m.rate.isFinite :=
  object_assures_record (by decide)
    (assures_any <| assures_any <| assures_any <| assures_any <|
      assures_lenient (by simp [Schema.reach]) number_assures_real (by decide) <|
      assures_none)
    fun _ goods => goods.1

theorem content_assures :
    (Rule.object Schema.content).Assures (Content.shape .received) Content.Sound :=
  object_assures_record (by decide)
    (assures_required (by simp [Schema.content]) name_assures_text <|
      assures_any <| assures_any <|
      assures_lenient (by simp [Schema.content]) reach_assures (by decide) <|
      assures_any <| assures_any <| assures_any <| assures_none)
    fun _ goods => ⟨goods.1, goods.2.1⟩

theorem batch_assures : (Rule.object Schema.batch).Assures Input.Batch.shape Input.Batch.Sound :=
  object_assures_record (by decide)
    (assures_any <|
      assures_optional (by simp [Schema.batch])
        (objects_assures_sequence content_assures) <|
      assures_any <| assures_none)
    fun _ goods => ⟨goods.1⟩

theorem job_assures :
    (Rule.object Schema.job).Assures Input.JobMessage.shape Input.JobMessage.Sound :=
  object_assures_record (by decide)
    (assures_any <| assures_any <|
      assures_optional (by simp [Schema.job]) progress_assures <|
      assures_optional (by simp [Schema.job]) batch_assures <|
      assures_none)
    fun _ goods => ⟨goods.1, goods.2.1⟩

end

end NotificationRelay
