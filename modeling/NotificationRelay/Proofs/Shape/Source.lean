import NotificationRelay.Proofs.Shape.Record
import NotificationRelay.Shape.Source

/-! Records in other formats. They are read by their keys as well, whatever the format, so neither
the order of the members counts nor any member that no field is named after. -/
namespace NotificationRelay.Shape

section

variable {α σ τ υ : Type}

theorem takeMember_unknown {source : Source υ} {σ τ : Type} : (fields : Fields σ τ) → (slots : τ) →
    {key : String} → key ∉ fields.keys → (x : υ) →
    takeMember source fields slots (key, x) = some slots
  | .none, (), _, _, _ => by rw [takeMember]
  | .cons name _ shape more, (slot, slots), key, unknown, x => by
    rw [Fields.keys, List.mem_cons, not_or] at unknown
    rw [takeMember, if_neg unknown.1, takeMember_unknown more slots unknown.2 x]
    rfl

theorem takeMember_eq {source : Source υ} {σ τ : Type} : (fields : Fields σ τ) →
    fields.keys.Nodup → (slots : τ) → (member : String × υ) →
    takeMember source fields slots member = takeField (fun _ => take source) fields slots member
  | .none, _, (), _ => by
    rw [takeMember]
    rfl
  | .cons key _ shape more, nodup, (slot, slots), (name, x) => by
    rw [Fields.keys, List.nodup_cons] at nodup
    rw [takeMember, takeField, takeSlot, ← takeMember_eq more nodup.2]
    by_cases same : name = key
    · subst same
      simp only [if_true, takeMember_unknown more slots nodup.1 x, Option.map_some]
      split
      · rfl
      · cases shape.take source x <;> rfl
    · simp only [if_neg same]
      rfl

variable {source : Source υ} {name : String} {fields : Fields σ τ} {build : σ → α} {parts : α → σ}
  {x y : υ} {members members' : List (String × υ)} {value : α}

/-- Members with keys are read field by field. -/
theorem take_record (nodup : fields.keys.Nodup) (held : source.record x = some (.inl members)) :
    (record name fields build parts).take source x =
      (ofMembers (fun _ => take source) fields members).map build := by
  have fold : takeMember source fields = takeField (fun _ => take source) fields :=
    funext fun slots => funext (takeMember_eq fields nodup slots)
  rw [← foldlM_takeField, ← fold, take, held]
  simp only [Option.bind_eq_bind, Option.bind_some, Option.pure_def, Option.map_bind]
  congr 1
  funext slots
  rw [Function.comp_apply]
  cases (fields.finish slots).toOption <;> rfl

/-- Whatever a record is taken from, it is built of its fields. -/
theorem build_of_take (found : (record name fields build parts).take source x = some value) :
    ∃ values, value = build values := by
  simp only [take, Option.bind_eq_bind, Option.bind_eq_some_iff] at found
  obtain ⟨held, _, found⟩ := found
  cases held with
  | inl members =>
    simp only [Option.bind_eq_some_iff, Option.pure_def, Option.some.injEq] at found
    obtain ⟨_, _, values, _, same⟩ := found
    exact ⟨values, same.symm⟩
  | inr items =>
    simp only [Option.bind_eq_some_iff, Option.pure_def, Option.some.injEq] at found
    obtain ⟨values, _, same⟩ := found
    exact ⟨values, same.symm⟩

theorem ofMembers_perm (read : (α : Type) → Shape α → υ → Option α) {σ τ : Type} :
    (fields : Fields σ τ) → members.Perm members' →
    ofMembers read fields members = ofMembers read fields members'
  | .none, _ => rfl
  | .cons key fallback shape more, perm => by
    have here : (under key members).Perm (under key members') := perm.filter _
    rw [ofMembers, ofMembers, ofMembers_perm read more perm]
    rcases found : under key members with _ | ⟨member, _ | ⟨second, rest⟩⟩
    · rw [found] at here
      rw [List.nil_perm.mp here]
    · rw [found] at here
      rw [List.singleton_perm.mp here]
    · have several := here.length_eq
      rw [found] at several
      generalize under key members' = others at several
      rcases others with _ | ⟨_, _ | ⟨_, _⟩⟩
      · cases several
      · cases Nat.succ.inj several
      · rfl

/-- The order of the members does not count. -/
theorem take_record_perm (nodup : fields.keys.Nodup) (held : source.record x = some (.inl members))
    (held' : source.record y = some (.inl members')) (perm : members.Perm members') :
    (record name fields build parts).take source x =
      (record name fields build parts).take source y := by
  rw [take_record nodup held, take_record nodup held', ofMembers_perm _ _ perm]

/-- Where no field is named, there are the fallbacks. -/
theorem ofMembers_of_silent (read : (α : Type) → Shape α → υ → Option α) {σ τ : Type} :
    (fields : Fields σ τ) → (∀ m ∈ members, m.1 ∉ fields.keys) → (index : Nat) →
    ofMembers read fields members = (fields.fillFrom index).toOption
  | .none, _, _ => rfl
  | .cons key fallback shape more, silent, index => by
    have none : under key members = [] := by
      refine List.filter_eq_nil_iff.mpr fun m among named => silent m among ?_
      exact of_decide_eq_true named ▸ List.mem_cons_self
    have others := ofMembers_of_silent read more
      (fun m among named => silent m among (List.mem_cons_of_mem _ named)) (index + 1)
    rw [ofMembers, none, others]
    cases fallback with
    | none => rfl
    | some value =>
      simp only [Fields.fillFrom, toOption_map, Option.bind_some]

end

end NotificationRelay.Shape
