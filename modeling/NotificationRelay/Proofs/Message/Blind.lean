import Mathlib.Data.List.Nodup
import NotificationRelay.Message.Input
import NotificationRelay.Message.Phase
import NotificationRelay.Proofs.Shape.Core

/-! What a schema and the reader of its message do not see. A rule is blind for a shape if it says
the same of two values with one core, and if the reader makes the same of them once they pass. -/
namespace NotificationRelay

open Json

def Rule.Blind {α : Type} (rule : Rule) (shape : Shape α) : Prop :=
  ∀ ⦃path : Path⦄ ⦃j j' : Json⦄, j.Distinct → j'.Distinct → shape.core j = shape.core j' →
    rule.check path j = rule.check path j' ∧
      (rule.check path j = .ok () → shape.ofJson? j = shape.ofJson? j')

/-- Values with one canonical form are the same, or both lists or both objects. -/
theorem Json.cases_of_canonical {j j' : Json} (same : j.canonical = j'.canonical) :
    j = j' ∨ (∃ items items', j = .list items ∧ j' = .list items' ∧
      items.map canonical = items'.map canonical) ∨
      ∃ members members', j = .object members ∧ j' = .object members' := by
  have kinds : j.kind = j'.kind := by rw [← kind_canonical, same, kind_canonical]
  cases j with
  | list items =>
    obtain ⟨items', rfl⟩ := eq_list_of_kind kinds.symm
    rw [canonical, canonical, canonicalItems_eq, canonicalItems_eq] at same
    exact .inr (.inl ⟨items, items', rfl, rfl, Json.list.inj same⟩)
  | object members =>
    obtain ⟨members', rfl⟩ := eq_object_of_kind kinds.symm
    exact .inr (.inr ⟨members, members', rfl, rfl⟩)
  | _ =>
    cases j' with
    | list _ => simp [kind] at kinds
    | object _ => simp [kind] at kinds
    | _ => exact .inl same

theorem isText_canonical (j : Json) : isText j.canonical = isText j := by
  cases j <;> rfl

namespace Rule

/-- Rules that look at no member of an object. What they refuse as a word is shown in canonical
form, if at all. -/
inductive Plain : Rule → Prop where
  | text : Plain .text
  | name : Plain .name
  | natural : Plain .natural
  | number : Plain .number
  | flag : Plain .flag
  | timestamp : Plain .timestamp
  | texts : Plain .texts
  | word (words : List String) {refuse : Path → Json → Violation}
      (steady : ∀ path j j', j.canonical = j'.canonical → refuse path j = refuse path j') :
      Plain (.word words refuse)

theorem checkTexts_canonical (path : Path) {items items' : List Json}
    (same : items.map canonical = items'.map canonical) :
    checkTexts path (.list items) = checkTexts path (.list items') := by
  have find (items : List Json) : items.findIdx? (fun item => !isText item) =
      (items.map canonical).findIdx? fun item => !isText item := by
    rw [List.findIdx?_map]
    congr 1
    funext item
    exact congrArg not (isText_canonical item).symm
  rw [checkTexts, checkTexts, find items, find items', same]

theorem Plain.check_eq {rule : Rule} (plain : rule.Plain) (path : Path) {j j' : Json}
    (same : j.canonical = j'.canonical) : rule.check path j = rule.check path j' := by
  obtain rfl | ⟨items, items', rfl, rfl, inside⟩ | ⟨members, members', rfl, rfl⟩ :=
    cases_of_canonical same
  · rfl
  · cases plain with
    | natural => simp only [check, isNatural, printCanonical, same]
    | texts => simpa only [check] using checkTexts_canonical path inside
    | word words steady => simp only [check, steady path _ _ same]
    | name => simp only [check]
    | _ =>
      simp only [check]
      rfl
  · cases plain with
    | natural => simp only [check, isNatural, printCanonical, same]
    | word words steady => simp only [check, steady path _ _ same]
    | name => simp only [check]
    | _ =>
      simp only [check]
      rfl

/-- What passes has no members, so it is its own canonical form. -/
theorem Plain.canonical_eq {rule : Rule} (plain : rule.Plain) {path : Path} {j : Json}
    (ok : rule.check path j = .ok ()) : j.canonical = j := by
  cases j with
  | object members => cases plain <;> simp [check, checkThat, isText, isNatural, isNumber, isFlag,
      checkTimestamp, checkTexts] at ok
  | list items =>
    cases plain with
    | texts =>
      rw [check, checkTexts] at ok
      split at ok
      · cases ok
      · rename_i all
        have texts := List.findIdx?_eq_none_iff.mp all
        have fixed : items.map canonical = items := by
          refine (List.map_congr_left fun item among => ?_).trans (List.map_id items)
          have kind := texts item among
          cases item with
          | text s => rfl
          | _ => cases kind
        rw [canonical, canonicalItems_eq, fixed]
    | _ => simp [check, checkThat, isText, isNatural, isNumber, isFlag, checkTimestamp] at ok
  | _ => rfl

theorem Plain.blind {α : Type} {rule : Rule} {shape : Shape α} (plain : rule.Plain)
    (flat : ∀ j, shape.pruned j = j) : rule.Blind shape := by
  intro path j j' _ _ same
  rw [Shape.core, Shape.core, flat, flat] at same
  have agreed := plain.check_eq path same
  refine ⟨agreed, fun ok => ?_⟩
  have whole : j = j' := by
    rw [← plain.canonical_eq ok, same, plain.canonical_eq (agreed ▸ ok)]
  rw [whole]

theorem natural_blind : Rule.natural.Blind .word := Plain.natural.blind fun _ => rfl

theorem number_blind : Rule.number.Blind .real := Plain.number.blind fun _ => rfl

theorem flag_blind : Rule.flag.Blind .flag := Plain.flag.blind fun _ => rfl

theorem text_blind : Rule.text.Blind .text := Plain.text.blind fun _ => rfl

theorem name_blind : Rule.name.Blind .text := Plain.name.blind fun _ => rfl

theorem timestamp_blind : Rule.timestamp.Blind .instant := Plain.timestamp.blind fun _ => rfl

theorem texts_blind : Rule.texts.Blind (.sequence .text) := by
  refine Plain.texts.blind fun j => ?_
  cases j with
  | list items =>
    have same : (Shape.text).pruned = id := rfl
    rw [Shape.pruned, overItems, same, List.map_id]
  | _ => rfl

section

variable {α : Type} {rule : Rule} {shape : Shape α}

theorem Blind.optional (blind : rule.Blind shape) : rule.Blind (.optional shape) := by
  intro path j j' distinct distinct' same
  obtain ⟨agreed, reads⟩ := blind distinct distinct' same
  refine ⟨agreed, fun ok => ?_⟩
  have kinds := Shape.kind_of_core same
  rw [Shape.ofJson?, Shape.ofJson?]
  by_cases null : j.isNull
  · obtain rfl := eq_null null
    obtain rfl := eq_null (isNull_iff_kind.mpr kinds.symm)
    rfl
  · have null' : j'.isNull = false := by
      rw [← Bool.not_eq_true, isNull_iff_kind, ← kinds, ← isNull_iff_kind]
      exact null
    rw [Members.optional?_of_not_null (by simpa using null), Members.optional?_of_not_null null',
      reads ok]

theorem Blind.nullAs (blind : rule.Blind shape) (given : α) : rule.Blind (.nullAs given shape) := by
  intro path j j' distinct distinct' same
  obtain ⟨agreed, reads⟩ := blind.optional distinct distinct' same
  refine ⟨agreed, fun ok => ?_⟩
  have through (j : Json) : (Shape.nullAs given shape).ofJson? j =
      ((Shape.optional shape).ofJson? j).map (·.getD given) := by simp
  rw [through, through, reads ok]

end

end Rule

namespace Members

variable {α σ τ : Type} {rules : Members}

def keys (rules : Members) : List String := rules.entries.map (·.1)

theorem check_congr {path : Path} {members members' : List (String × Json)} :
    {rules : Members} →
    (∀ key required rule, (key, required, rule) ∈ rules.entries →
      (present key members).map (rule.check (path ++ [.key key])) =
        (present key members').map (rule.check (path ++ [.key key]))) →
    rules.check path members = rules.check path members'
  | .none, _ => by rw [Members.check, Members.check]
  | .cons key required rule more, same => by
    have here := same key required rule List.mem_cons_self
    have later : more.check path members = more.check path members' :=
      check_congr fun key required rule among =>
        same key required rule (List.mem_cons_of_mem _ among)
    rw [Members.check, Members.check, later]
    cases found : present key members with
    | none =>
      rw [found] at here
      rw [Option.map_eq_none_iff.mp here.symm]
    | some j =>
      rw [found] at here
      obtain ⟨j', found', agreed⟩ := Option.map_eq_some_iff.mp here.symm
      rw [found']
      dsimp only
      rw [agreed]

def Blind (rules : Members) (fields : Fields σ τ) : Prop :=
  ∀ ⦃path : Path⦄ ⦃members members' : List (String × Json)⦄, (∀ m ∈ members, m.2.Distinct) →
    (∀ m ∈ members', m.2.Distinct) → fields.Agree members members' →
    (∀ key required rule, (key, required, rule) ∈ rules.entries → key ∈ fields.keys →
      (present key members).map (rule.check (path ++ [.key key])) =
        (present key members').map (rule.check (path ++ [.key key]))) ∧
    (rules.check path members = .ok () →
      (fields.ofLookup fun key => lookup key members) =
        fields.ofLookup fun key => lookup key members')

def Overlooks (rules : Members) (key : String) (shape : Shape α) : Prop :=
  ∀ ⦃path : Path⦄ ⦃members : List (String × Json)⦄ ⦃j j' : Json⦄, j.Distinct → j'.Distinct →
    shape.core j = shape.core j' →
    (∀ required rule, (key, required, rule) ∈ rules.entries →
      rule.check (path ++ [.key key]) j = rule.check (path ++ [.key key]) j') ∧
    (rules.check path members = .ok () → present key members = some j →
      shape.ofJson? j = shape.ofJson? j')

theorem overlooks_of_rule {key : String} {rule : Rule} {shape : Shape α} (once : rules.keys.Nodup)
    (ruled : ∃ required, (key, required, rule) ∈ rules.entries) (blind : rule.Blind shape) :
    rules.Overlooks key shape := by
  obtain ⟨required, ruled⟩ := ruled
  intro path members j j' distinct distinct' same
  refine ⟨fun required' rule' among => ?_, fun ok found => ?_⟩
  · have only := List.inj_on_of_nodup_map once among ruled rfl
    cases only
    exact (blind distinct distinct' same).1
  · exact (blind distinct distinct' same).2 ((check_entry ok ruled).1 j found)

theorem overlooks_unruled {key : String} (unruled : key ∉ rules.keys) :
    rules.Overlooks key (.optional .text) := by
  intro path members j j' _ _ same
  refine ⟨fun required rule among => ?_, fun _ _ => ?_⟩
  · exact absurd (List.mem_map.mpr ⟨_, among, rfl⟩) unruled
  · obtain rfl | ⟨_, _, rfl, rfl, _⟩ | ⟨_, _, rfl, rfl⟩ := cases_of_canonical same <;> rfl

theorem blind_none : rules.Blind .none := by
  intro path members members' _ _ _
  exact ⟨fun _ _ _ _ among => absurd among List.not_mem_nil, fun _ => rfl⟩

/-- A field that reads null as it takes absence. -/
theorem held_present {key : String} {fallback : Option α} {shape : Shape α}
    (null : shape.ofJson? .null = fallback) (members : List (String × Json)) :
    Fields.held fallback shape (lookup key members) =
      Fields.held fallback shape (present key members) := by
  cases found : lookup key members with
  | none =>
    have missing : present key members = Option.none := by rw [present, found]; rfl
    rw [missing]
  | some j =>
    cases kind : j.isNull with
    | true =>
      have missing : present key members = Option.none := by rw [present, found]; simp [kind]
      obtain rfl := eq_null kind
      rw [missing]
      exact null
    | false => rw [present_eq_some.mpr ⟨found, kind⟩]

theorem blind_cons {key : String} {fallback : Option α} {shape : Shape α} {more : Fields σ τ}
    (null : shape.ofJson? .null = fallback) (first : rules.Overlooks key shape)
    (others : rules.Blind more) : rules.Blind (.cons key fallback shape more) := by
  intro path members members' distinct distinct' agree
  obtain ⟨here, later⟩ := agree
  obtain ⟨settled, reads⟩ := others distinct distinct' later
  -- null and absence are one; otherwise both have a value, and the values have one core
  have both : (present key members = Option.none ∧ present key members' = Option.none) ∨
      ∃ j j', present key members = some j ∧ present key members' = some j' ∧ j.Distinct ∧
        j'.Distinct ∧ shape.core j = shape.core j' := by
    cases found : present key members with
    | none =>
      rw [found] at here
      exact .inl ⟨rfl, Option.map_eq_none_iff.mp here.symm⟩
    | some j =>
      rw [found] at here
      obtain ⟨j', found', same⟩ := Option.map_eq_some_iff.mp here.symm
      exact .inr ⟨j, j', rfl, found', distinct _ (mem_of_lookup (present_eq_some.mp found).1),
        distinct' _ (mem_of_lookup (present_eq_some.mp found').1), same.symm⟩
  refine ⟨fun name required rule among known => ?_, fun ok => ?_⟩
  · rcases List.mem_cons.mp known with rfl | old
    · obtain ⟨missing, missing'⟩ | ⟨j, j', found, found', inside, inside', same⟩ := both
      · rw [missing, missing']
      · have agreed := (@first path members j j' inside inside' same).1 required rule among
        rw [found, found', Option.map_some, Option.map_some, agreed]
    · exact settled name required rule among old
  · have slot : Fields.held fallback shape (lookup key members) =
        Fields.held fallback shape (lookup key members') := by
      rw [held_present null, held_present null]
      obtain ⟨missing, missing'⟩ | ⟨j, j', found, found', inside, inside', same⟩ := both
      · rw [missing, missing']
      · rw [found, found']
        exact (first inside inside' same).2 ok found
    rw [Fields.ofLookup, Fields.ofLookup, slot, reads ok]

section

variable {key : String} {rule : Rule} {shape : Shape α} {more : Fields σ τ}

theorem blind_required (once : rules.keys.Nodup)
    (ruled : ∃ required, (key, required, rule) ∈ rules.entries) (blind : rule.Blind shape)
    (null : shape.ofJson? .null = Option.none) (others : rules.Blind more) :
    rules.Blind (.required key shape more) :=
  blind_cons null (overlooks_of_rule once ruled blind) others

theorem blind_optional (once : rules.keys.Nodup)
    (ruled : ∃ required, (key, required, rule) ∈ rules.entries) (blind : rule.Blind shape)
    (others : rules.Blind more) : rules.Blind (.optional key shape more) :=
  blind_cons (by simp [optional?]) (overlooks_of_rule once ruled blind.optional) others

theorem blind_lenient (once : rules.keys.Nodup)
    (ruled : ∃ required, (key, required, rule) ∈ rules.entries) (blind : rule.Blind shape)
    {given : α} (others : rules.Blind more) : rules.Blind (.lenient key given shape more) :=
  blind_cons (by simp [optional?]) (overlooks_of_rule once ruled (blind.nullAs given)) others

theorem blind_unruled (unruled : key ∉ rules.keys) (others : rules.Blind more) :
    rules.Blind (.optional key .text more) :=
  blind_cons (by simp [optional?]) (overlooks_unruled unruled) others

end

end Members

namespace Rule

variable {α σ τ : Type} {rules : Members}

theorem check_object (path : Path) (rules : Members) (members : List (String × Json)) :
    (Rule.object rules).check path (.object members) = rules.check path members := by
  rw [check, Members.checkObject]

theorem check_not_object (path : Path) (rules : Members) {j : Json} (other : j.kind ≠ "object") :
    (Rule.object rules).check path j =
      .error (.value path ("expected object, got " ++ j.kind)) := by
  cases j with
  | object members => exact absurd rfl other
  | _ => rw [check, Members.checkObject]; simp

theorem object_blind {name : String} {fields : Fields σ τ} {build : σ → α} {parts : α → σ}
    (nodup : fields.keys.Nodup) (known : rules.keys ⊆ fields.keys) (blind : rules.Blind fields) :
    (Rule.object rules).Blind (.record name fields build parts) := by
  intro path j j' distinct distinct' same
  have kinds := Shape.kind_of_core same
  by_cases named : j.kind = "object"
  · obtain ⟨members, rfl⟩ := eq_object_of_kind named
    obtain ⟨members', rfl⟩ := eq_object_of_kind kinds.symm
    obtain ⟨once, inside⟩ := distinct.members
    obtain ⟨once', inside'⟩ := distinct'.members
    have agree := Fields.agree_of_core nodup once once' same
    obtain ⟨settled, reads⟩ := @blind path members members' inside inside' agree
    have checked : rules.check path members = rules.check path members' := by
      refine Members.check_congr fun key required rule among => ?_
      exact settled key required rule among (known (List.mem_map.mpr ⟨_, among, rfl⟩))
    rw [check_object, check_object]
    refine ⟨checked, fun ok => ?_⟩
    have single {m : List (String × Json)} (once : (m.map (·.1)).Nodup) :
        ¬∃ key ∈ fields.keys, 1 < occurrences key m := by
      rintro ⟨key, _, twice⟩
      have most := occurrences_le_one once key
      omega
    rw [Shape.ofJson?_object nodup, Shape.ofJson?_object nodup, if_neg (single once),
      if_neg (single once'), reads ok]
  · rw [check_not_object path rules named, check_not_object path rules (kinds ▸ named), kinds]
    exact ⟨rfl, nofun⟩

theorem items_blind {shape : Shape α} (blind : (Rule.object rules).Blind shape) {path : Path}
    {items items' : List Json} (distinct : ∀ j ∈ items, j.Distinct)
    (distinct' : ∀ j ∈ items', j.Distinct)
    (same : items.map shape.core = items'.map shape.core) (n : Nat) :
    let checked := fun (item : Json × Nat) =>
      rules.checkObject (path ++ [.index item.2]) item.1
    (items.zipIdx n).forM checked = (items'.zipIdx n).forM checked ∧
      ((items.zipIdx n).forM checked = .ok () →
        items.mapM shape.ofJson? = items'.mapM shape.ofJson?) := by
  intro checked
  induction items generalizing items' n with
  | nil =>
    obtain rfl := List.map_eq_nil_iff.mp same.symm
    exact ⟨rfl, fun _ => rfl⟩
  | cons item rest ih =>
    obtain ⟨item', rest', rfl, head, tail⟩ := List.map_eq_cons_iff.mp same.symm
    obtain ⟨here, reads⟩ := @blind (path ++ [.index n]) item item'
      (distinct item List.mem_cons_self) (distinct' item' List.mem_cons_self) head.symm
    obtain ⟨later, others⟩ := ih (fun j among => distinct j (List.mem_cons_of_mem _ among))
      (fun j among => distinct' j (List.mem_cons_of_mem _ among)) tail.symm (n + 1)
    have step (item : Json) : (Rule.object rules).check (path ++ [.index n]) item =
        checked (item, n) := by rw [check]
    rw [step, step] at here
    rw [step] at reads
    change (checked (item, n) >>= fun _ => (rest.zipIdx (n + 1)).forM checked) =
        (checked (item', n) >>= fun _ => (rest'.zipIdx (n + 1)).forM checked) ∧
      ((checked (item, n) >>= fun _ => (rest.zipIdx (n + 1)).forM checked) = .ok () → _)
    rw [← here, ← later]
    refine ⟨rfl, fun ok => ?_⟩
    obtain ⟨first, more⟩ := both_success.mp ok
    rw [List.mapM_cons, List.mapM_cons, reads first, others more]

theorem objects_blind {shape : Shape α} (blind : (Rule.object rules).Blind shape) :
    (Rule.objects rules).Blind (.sequence shape) := by
  intro path j j' distinct distinct' same
  have kinds := Shape.kind_of_core same
  by_cases named : j.kind = "array"
  · obtain ⟨items, rfl⟩ := eq_list_of_kind named
    obtain ⟨items', rfl⟩ := eq_list_of_kind kinds.symm
    rw [Shape.core_list, Shape.core_list] at same
    obtain ⟨checked, reads⟩ := @items_blind α rules shape blind path items items' distinct.items
      distinct'.items (Json.list.inj same) 0
    rw [check, check]
    exact ⟨checked, fun ok => by simpa [items?] using reads ok⟩
  · have refused {j : Json} (other : j.kind ≠ "array") :
        (Rule.objects rules).check path j = .error (.value path "must be an array") := by
      cases j with
      | list items => exact absurd rfl other
      | _ => simp [check]
    rw [refused named, refused (kinds ▸ named)]
    exact ⟨rfl, fun ok => by cases ok⟩

end Rule

open Members (blind_none blind_required blind_optional blind_lenient blind_unruled)
open Rule (natural_blind number_blind flag_blind text_blind name_blind timestamp_blind texts_blind
  object_blind objects_blind)

namespace Schema

theorem refuseStatus_steady (path : Path) (j j' : Json) (same : j.canonical = j'.canonical) :
    refuseStatus path j = refuseStatus path j' := by
  obtain rfl | ⟨_, _, rfl, rfl, _⟩ | ⟨_, _, rfl, rfl⟩ := cases_of_canonical same
  · rfl
  · simp only [refuseStatus, printCanonical, same]
  · simp only [refuseStatus, printCanonical, same]

theorem refusePlatform_steady (path : Path) (j j' : Json) (same : j.canonical = j'.canonical) :
    refusePlatform path j = refusePlatform path j' := by
  obtain rfl | ⟨_, _, rfl, rfl, _⟩ | ⟨_, _, rfl, rfl⟩ := cases_of_canonical same
  · rfl
  · simp only [refusePlatform, printCanonical, same]
  · simp only [refusePlatform, printCanonical, same]

theorem refusePhaseStatus_steady (path : Path) (j j' : Json) (same : j.canonical = j'.canonical) :
    refusePhaseStatus path j = refusePhaseStatus path j' := by
  obtain rfl | ⟨_, _, rfl, rfl, _⟩ | ⟨_, _, rfl, rfl⟩ := cases_of_canonical same <;> rfl

theorem refuseEvent_steady (path : Path) (j j' : Json) (same : j.canonical = j'.canonical) :
    refuseEvent path j = refuseEvent path j' := by
  obtain rfl | ⟨_, _, rfl, rfl, _⟩ | ⟨_, _, rfl, rfl⟩ := cases_of_canonical same <;> rfl

end Schema

theorem word_blind {α : Type} (vocabulary : Vocabulary α) {refuse : Path → Json → Violation}
    (steady : ∀ path j j', j.canonical = j'.canonical → refuse path j = refuse path j') :
    (Rule.word (@Vocabulary.words α vocabulary) refuse).Blind (.choice vocabulary) :=
  (Rule.Plain.word _ steady).blind fun _ => rfl

theorem progress_blind : (Rule.object Schema.progress).Blind Input.Progress.shape := by
  have once : Schema.progress.keys.Nodup := by decide
  exact object_blind (by decide) (by decide)
    (blind_lenient once (by simp [Schema.progress]) natural_blind <|
      blind_lenient once (by simp [Schema.progress]) natural_blind <|
      blind_lenient once (by simp [Schema.progress]) number_blind <|
      blind_lenient once (by simp [Schema.progress]) number_blind <|
      blind_optional once (by simp [Schema.progress]) texts_blind <|
      blind_none)

theorem project_blind : (Rule.object Schema.project).Blind Input.ProjectMessage.shape := by
  have once : Schema.project.keys.Nodup := by decide
  exact object_blind (by decide) (by decide)
    (blind_optional once (by simp [Schema.project]) (word_blind _ Schema.refuseStatus_steady) <|
      blind_optional once (by simp [Schema.project]) progress_blind <|
      blind_none)

theorem phaseProgress_blind :
    (Rule.object Schema.phaseProgress).Blind (PhaseProgress.shape .received) := by
  have once : Schema.phaseProgress.keys.Nodup := by decide
  exact object_blind (by decide) (by decide)
    (blind_lenient once (by simp [Schema.phaseProgress]) natural_blind <|
      blind_lenient once (by simp [Schema.phaseProgress]) natural_blind <|
      blind_lenient once (by simp [Schema.phaseProgress]) natural_blind <|
      blind_lenient once (by simp [Schema.phaseProgress]) number_blind <|
      blind_none)

theorem phasePayload_blind :
    (Rule.object Schema.phasePayload).Blind (PhasePayload.shape .received) := by
  have once : Schema.phasePayload.keys.Nodup := by decide
  exact object_blind (by decide) (by decide)
    (blind_required once (by simp [Schema.phasePayload]) name_blind rfl <|
      blind_required once (by simp [Schema.phasePayload])
        (word_blind _ Schema.refusePhaseStatus_steady) rfl <|
      blind_optional once (by simp [Schema.phasePayload]) phaseProgress_blind <|
      blind_optional once (by simp [Schema.phasePayload]) phaseProgress_blind <|
      blind_required once (by simp [Schema.phasePayload]) number_blind rfl <|
      blind_none)

theorem projectPhase_blind :
    (Rule.object Schema.projectPhase).Blind (PhaseMessage.shape .received) := by
  have once : Schema.projectPhase.keys.Nodup := by decide
  exact object_blind (by decide) (by decide)
    (blind_required once (by simp [Schema.projectPhase])
        (word_blind _ Schema.refuseEvent_steady) rfl <|
      blind_required once (by simp [Schema.projectPhase]) phasePayload_blind rfl <|
      blind_none)

theorem author_blind : (Rule.object Schema.author).Blind (Author.shape .received) := by
  have once : Schema.author.keys.Nodup := by decide
  exact object_blind (by decide) (by decide)
    (blind_lenient once (by simp [Schema.author]) text_blind <|
      blind_lenient once (by simp [Schema.author]) text_blind <|
      blind_lenient once (by simp [Schema.author]) text_blind <|
      blind_lenient once (by simp [Schema.author]) natural_blind <|
      blind_lenient once (by simp [Schema.author]) flag_blind <|
      blind_optional once (by simp [Schema.author]) text_blind <|
      blind_none)

theorem reach_blind : (Rule.object Schema.reach).Blind (Reach.shape .received) := by
  have once : Schema.reach.keys.Nodup := by decide
  exact object_blind (by decide) (by decide)
    (blind_lenient once (by simp [Schema.reach]) natural_blind <|
      blind_lenient once (by simp [Schema.reach]) natural_blind <|
      blind_lenient once (by simp [Schema.reach]) natural_blind <|
      blind_lenient once (by simp [Schema.reach]) natural_blind <|
      blind_lenient once (by simp [Schema.reach]) number_blind <|
      blind_none)

theorem media_blind : (Rule.object Schema.media).Blind (Media.shape .received) := by
  have once : Schema.media.keys.Nodup := by decide
  exact object_blind (by decide) (by decide)
    (blind_required once (by simp [Schema.media]) name_blind rfl <|
      blind_optional once (by simp [Schema.media]) number_blind <|
      blind_unruled (by decide) <|
      blind_unruled (by decide) <|
      blind_none)

theorem content_blind : (Rule.object Schema.content).Blind (Content.shape .received) := by
  have once : Schema.content.keys.Nodup := by decide
  exact object_blind (by decide) (by decide)
    (blind_required once (by simp [Schema.content]) name_blind rfl <|
      blind_lenient once (by simp [Schema.content]) text_blind <|
      blind_lenient once (by simp [Schema.content]) author_blind <|
      blind_lenient once (by simp [Schema.content]) reach_blind <|
      blind_optional once (by simp [Schema.content]) media_blind <|
      blind_required once (by simp [Schema.content]) timestamp_blind rfl <|
      blind_lenient once (by simp [Schema.content]) text_blind <|
      blind_none)

theorem batch_blind : (Rule.object Schema.batch).Blind Input.Batch.shape := by
  have once : Schema.batch.keys.Nodup := by decide
  exact object_blind (by decide) (by decide)
    (blind_required once (by simp [Schema.batch]) text_blind rfl <|
      blind_optional once (by simp [Schema.batch]) (objects_blind content_blind) <|
      blind_required once (by simp [Schema.batch]) timestamp_blind rfl <|
      blind_none)

theorem job_blind : (Rule.object Schema.job).Blind Input.JobMessage.shape := by
  have once : Schema.job.keys.Nodup := by decide
  exact object_blind (by decide) (by decide)
    (blind_required once (by simp [Schema.job]) (word_blind _ Schema.refusePlatform_steady) rfl <|
      blind_optional once (by simp [Schema.job]) (word_blind _ Schema.refuseStatus_steady) <|
      blind_optional once (by simp [Schema.job]) progress_blind <|
      blind_optional once (by simp [Schema.job]) batch_blind <|
      blind_none)

end NotificationRelay
