/-! Results that are values or errors, and steps taken one after another. -/
namespace NotificationRelay

def Fails {ε α : Type} (result : Except ε α) : Prop := ∃ e, result = .error e

section

variable {ε α β : Type}

theorem bind_success {first : Except ε α} {next : α → Except ε β} {result : β}
    (ok : (first >>= next) = .ok result) : ∃ a, first = .ok a ∧ next a = .ok result := by
  cases first with
  | error e => cases ok
  | ok a => exact ⟨a, rfl, ok⟩

theorem bind_failure {first : Except ε α} {next : α → Except ε β} {e : ε}
    (fails : (first >>= next) = .error e) :
    first = .error e ∨ ∃ a, first = .ok a ∧ next a = .error e := by
  cases first with
  | error e => exact .inl (congrArg _ (Except.error.inj fails))
  | ok a => exact .inr ⟨a, rfl, fails⟩

theorem both_success {first second : Except ε Unit} :
    (first >>= fun _ => second) = .ok () ↔ first = .ok () ∧ second = .ok () := by
  constructor
  · intro ok
    obtain ⟨_, passed, others⟩ := bind_success ok
    exact ⟨passed, others⟩
  · rintro ⟨rfl, ok⟩
    exact ok

theorem refusal_success {refused : Prop} [Decidable refused] {e : ε}
    {next : Unit → Except ε Unit} :
    (if refused then throw e >>= next else next ()) = .ok () ↔ ¬refused ∧ next () = .ok () := by
  by_cases bad : refused
  · rw [if_pos bad]
    exact iff_of_false (fun ok => nomatch ok) fun both => both.1 bad
  · rw [if_neg bad]
    exact ⟨fun ok => ⟨bad, ok⟩, fun both => both.2⟩

theorem Fails.map {result : Except ε α} (fails : Fails result) (f : α → β) :
    Fails (result.map f) := by
  obtain ⟨e, rfl⟩ := fails
  exact ⟨e, rfl⟩

theorem map_success {result : Except ε α} {f : α → β} {b : β} (ok : result.map f = .ok b) :
    ∃ a, result = .ok a ∧ f a = b := by
  cases result with
  | error e => cases ok
  | ok a => exact ⟨a, rfl, Except.ok.inj ok⟩

theorem map_failure {result : Except ε α} {f : α → β} {e : ε} (fails : result.map f = .error e) :
    result = .error e := by
  cases result with
  | error e => exact congrArg _ (Except.error.inj fails)
  | ok a => cases fails

theorem toOption_map (result : Except ε α) (f : α → β) :
    (result.map f).toOption = result.toOption.map f := by
  cases result <;> rfl

theorem toOption_eq_some {result : Except ε α} {a : α} : result.toOption = some a ↔ result = .ok a := by
  cases result <;> simp [Except.toOption]

theorem toOption_eq_none {result : Except ε α} : result.toOption = none ↔ Fails result := by
  cases result <;> simp [Except.toOption, Fails]

theorem forM_success {f : α → Except ε Unit} {items : List α} (ok : items.forM f = .ok ()) :
    ∀ a ∈ items, f a = .ok () := by
  induction items with
  | nil => simp
  | cons a items ih =>
    change (f a >>= fun _ => items.forM f) = _ at ok
    obtain ⟨first, others⟩ := both_success.mp ok
    intro b among
    rcases List.mem_cons.mp among with rfl | later
    · exact first
    · exact ih others b later

theorem forM_failure {f : α → Except ε Unit} {items : List α} {e : ε}
    (fails : items.forM f = .error e) : ∃ a ∈ items, f a = .error e := by
  induction items with
  | nil => cases fails
  | cons a items ih =>
    rcases bind_failure fails with first | ⟨_, _, later⟩
    · exact ⟨a, List.mem_cons_self, first⟩
    · obtain ⟨b, among, fails⟩ := ih later
      exact ⟨b, List.mem_cons_of_mem _ among, fails⟩

theorem mapM_eq_none {f : α → Option β} {items : List α} :
    items.mapM f = none ↔ ∃ a ∈ items, f a = none := by
  induction items with
  | nil => simp
  | cons a items ih =>
    rw [List.mapM_cons]
    cases found : f a with
    | none => simp [found]
    | some b =>
      cases later : items.mapM f with
      | none => simpa [found] using ih.mp later
      | some values =>
        rw [later] at ih
        simpa [found] using ih

theorem mapM_success {f : α → Option β} {items : List α} {values : List β}
    (ok : items.mapM f = some values) : ∀ b ∈ values, ∃ a ∈ items, f a = some b := by
  induction items generalizing values with
  | nil =>
    cases ok
    simp
  | cons a items ih =>
    rw [List.mapM_cons] at ok
    obtain ⟨first, found, ok⟩ := Option.bind_eq_some_iff.mp ok
    obtain ⟨others, later, same⟩ := Option.bind_eq_some_iff.mp ok
    cases same
    intro b among
    rcases List.mem_cons.mp among with rfl | among
    · exact ⟨a, List.mem_cons_self, found⟩
    · obtain ⟨c, there, found⟩ := ih later b among
      exact ⟨c, List.mem_cons_of_mem _ there, found⟩

end

end NotificationRelay
