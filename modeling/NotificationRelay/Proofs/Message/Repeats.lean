import NotificationRelay.Proofs.Message.Sifted

/-! Posts by the places where they stand. A post is repeated if another one with its identifier
stands before it; sifting keeps the posts that are not repeated, notes and counts the others, and
does nothing else. -/
namespace NotificationRelay

/-- Whether the post at a place has the identifier of one that stands before it. -/
def isRepeated (contents : List Content) (place : Content × Nat) : Bool :=
  place.1.id ∈ (contents.take place.2).map Content.id

def firsts (contents : List Content) : List Content :=
  (contents.zipIdx.filter fun place => !isRepeated contents place).map (·.1)

def repeats (contents : List Content) : List Content :=
  (contents.zipIdx.filter (isRepeated contents)).map (·.1)

theorem length_repeats_add_firsts (contents : List Content) :
    (repeats contents).length + (firsts contents).length = contents.length := by
  rw [repeats, firsts, List.length_map, List.length_map,
    ← List.length_eq_length_filter_add, List.length_zipIdx]

def skipped (dropped : List Content) : List Event := dropped.map fun c => .duplicateSkipped c.id

/-- What sifting makes of the posts that follow others, if the identifiers of those have been seen. -/
theorem siftFrom_eq {contents before rest : List Content} {seen : List String}
    (split : contents = before ++ rest) (same : ∀ id, id ∈ seen ↔ id ∈ before.map Content.id) :
    let places := rest.zipIdx before.length
    let repeated := places.filter (isRepeated contents)
    siftFrom seen rest = ⟨skipped (repeated.map (·.1)),
      ⟨(places.filter fun place => !isRepeated contents place).map (·.1), repeated.length⟩⟩ := by
  induction rest generalizing before seen with
  | nil => rfl
  | cons c rest ih =>
    have front : contents.take before.length = before := by
      rw [split]
      exact List.take_left
    have here : isRepeated contents (c, before.length) = decide (c.id ∈ seen) := by
      rw [isRepeated, front]
      exact decide_eq_decide.mpr (same c.id).symm
    have next : contents = (before ++ [c]) ++ rest := by
      rw [split, List.append_assoc]
      rfl
    have size : (before ++ [c]).length = before.length + 1 := List.length_append
    have ids : (before ++ [c]).map Content.id = before.map Content.id ++ [c.id] := List.map_append
    rw [siftFrom, Content.passOn_eq]
    simp only [List.zipIdx_cons, List.filter_cons, here]
    by_cases old : c.id ∈ seen
    · have known : ∀ id, id ∈ seen ↔ id ∈ (before ++ [c]).map Content.id := by
        intro id
        rw [ids, List.mem_append, ← same, List.mem_singleton]
        exact ⟨Or.inl, fun either => either.elim (fun among => among) fun last => last ▸ old⟩
      have later := ih next known
      rw [size] at later
      simp [old, later, skipped, bind, pure, Noted.note]
    · have known : ∀ id, id ∈ c.id :: seen ↔ id ∈ (before ++ [c]).map Content.id := by
        intro id
        rw [ids, List.mem_append, ← same, List.mem_cons, List.mem_singleton, or_comm]
      have later := ih next known
      rw [size] at later
      simp [old, later, skipped, bind, pure]

/-- All that sifting does. -/
theorem sift_eq (contents : List Content) : sift contents =
    ⟨skipped (repeats contents), ⟨firsts contents, (repeats contents).length⟩⟩ := by
  have none : ∀ id, id ∈ ([] : List String) ↔ id ∈ ([] : List Content).map Content.id :=
    fun id => Iff.rfl
  have whole : contents = [] ++ contents := rfl
  rw [sift, siftFrom_eq whole none, repeats, firsts, List.length_map]
  rfl

end NotificationRelay
