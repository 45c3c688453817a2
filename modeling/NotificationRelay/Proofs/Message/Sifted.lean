import Mathlib.Data.List.Nodup
import NotificationRelay.Proofs.Message.Normal

/-! Posts without repetition. Of the posts that share an identifier the first one stays as it was
given, whatever the later ones hold; those that stay keep their order, and the others are counted. -/
namespace NotificationRelay

def Content.hasId (id : String) (c : Content) : Bool := c.id = id

theorem Content.hasId_iff {id : String} {c : Content} : c.hasId id = true ↔ c.id = id :=
  decide_eq_true_iff

theorem dropped_siftFrom (seen : List String) (contents : List Content) :
    (siftFrom seen contents).value.dropped + (siftFrom seen contents).value.kept.length =
      contents.length := by
  induction contents generalizing seen with
  | nil => rfl
  | cons c rest ih =>
    rw [siftFrom, Content.passOn_eq, List.length_cons]
    split
    · have counted := ih seen
      simp only [Noted.value_bind, Noted.value_pure]
      omega
    · have counted := ih (c.id :: seen)
      simp only [Noted.value_bind, Noted.value_pure, List.length_cons]
      omega

/-- An identifier that has not been seen leads to the same post before and after. -/
theorem find?_siftFrom {id : String} {seen : List String} (fresh : id ∉ seen)
    (contents : List Content) :
    (siftFrom seen contents).value.kept.find? (Content.hasId id) =
      contents.find? (Content.hasId id) := by
  induction contents generalizing seen with
  | nil => rfl
  | cons c rest ih =>
    rw [siftFrom, Content.passOn_eq]
    split
    · rename_i old
      have other : ¬c.hasId id = true := by
        rw [Content.hasId_iff]
        intro same
        exact fresh (same ▸ old)
      rw [List.find?_cons_of_neg other]
      exact ih fresh
    · simp only [Noted.value_bind, Noted.value_pure]
      by_cases own : c.hasId id = true
      · rw [List.find?_cons_of_pos own, List.find?_cons_of_pos own]
      · have unseen : id ∉ c.id :: seen := by
          intro among
          rcases List.mem_cons.mp among with same | old
          · exact own (Content.hasId_iff.mpr same.symm)
          · exact fresh old
        rw [List.find?_cons_of_neg own, List.find?_cons_of_neg own]
        exact ih unseen

def firstPlace (contents : List Content) (c : Content) : Nat :=
  contents.findIdx (Content.hasId c.id)

theorem firstPlace_cons_of_ne {c d : Content} (other : c.id ≠ d.id) (rest : List Content) :
    firstPlace (c :: rest) d = firstPlace rest d + 1 := by
  have missed : c.hasId d.id = false := decide_eq_false other
  rw [firstPlace, List.findIdx_cons, missed]
  rfl

theorem firstPlace_cons_self (c : Content) (rest : List Content) :
    firstPlace (c :: rest) c = 0 := by
  have found : c.hasId c.id = true := Content.hasId_iff.mpr rfl
  rw [firstPlace, List.findIdx_cons, found]
  rfl

/-- What is kept stands in the order in which the identifiers first came. -/
theorem ordered_siftFrom (seen : List String) (contents : List Content) :
    (siftFrom seen contents).value.kept.Pairwise fun a b =>
      firstPlace contents a < firstPlace contents b := by
  induction contents generalizing seen with
  | nil => exact .nil
  | cons c rest ih =>
    -- what is kept of the rest has another identifier than `c`, so all its places move by one
    have moved (seen' : List String) (own : c.id ∈ seen') :
        (siftFrom seen' rest).value.kept.Pairwise fun a b =>
          firstPlace (c :: rest) a < firstPlace (c :: rest) b := by
      refine (ih seen').imp_of_mem fun {a b} first second before => ?_
      have apart (d : Content) (among : d ∈ (siftFrom seen' rest).value.kept) : c.id ≠ d.id := by
        intro same
        exact fresh_siftFrom seen' rest d among (same ▸ own)
      rw [firstPlace_cons_of_ne (apart a first), firstPlace_cons_of_ne (apart b second)]
      exact Nat.succ_lt_succ before
    rw [siftFrom, Content.passOn_eq]
    split
    · rename_i old
      exact moved seen old
    · refine List.pairwise_cons.mpr ⟨fun d among => ?_, moved (c.id :: seen) List.mem_cons_self⟩
      have other : c.id ≠ d.id := by
        intro same
        exact fresh_siftFrom (c.id :: seen) rest d among (same ▸ List.mem_cons_self)
      rw [firstPlace_cons_self, firstPlace_cons_of_ne other]
      exact Nat.succ_pos _

/-- Where nothing repeats, nothing is dropped and nothing is noted. -/
theorem siftFrom_of_distinct {seen : List String} {contents : List Content}
    (distinct : (contents.map Content.id).Nodup) (fresh : ∀ c ∈ contents, c.id ∉ seen) :
    siftFrom seen contents = pure ⟨contents, 0⟩ := by
  induction contents generalizing seen with
  | nil => rfl
  | cons c rest ih =>
    obtain ⟨once, distinct⟩ := List.nodup_cons.mp distinct
    have later : ∀ d ∈ rest, d.id ∉ c.id :: seen := by
      intro d among old
      rcases List.mem_cons.mp old with same | old
      · exact once (List.mem_map.mpr ⟨d, among, same⟩)
      · exact fresh d (List.mem_cons_of_mem c among) old
    rw [siftFrom, Content.passOn_eq, if_neg (fresh c List.mem_cons_self), ih distinct later]
    rfl

/-- Posts with an identifier are there just if the first of them is. -/
theorem mem_ids_iff (contents : List Content) (id : String) :
    id ∈ contents.map Content.id ↔ (contents.find? (Content.hasId id)).isSome := by
  rw [List.mem_map, List.find?_isSome]
  simp only [Content.hasId_iff]

/-- Where nothing repeats, every post is the first with its identifier. -/
theorem mem_iff_find? {contents : List Content} (distinct : (contents.map Content.id).Nodup)
    (c : Content) : c ∈ contents ↔ contents.find? (Content.hasId c.id) = some c := by
  refine ⟨fun among => ?_, List.mem_of_find?_eq_some⟩
  have there := (mem_ids_iff contents c.id).mp (List.mem_map_of_mem among)
  obtain ⟨d, found⟩ := Option.isSome_iff_exists.mp there
  have named : d.id = c.id := Content.hasId_iff.mp (List.find?_some found)
  have same : d = c :=
    List.inj_on_of_nodup_map distinct (List.mem_of_find?_eq_some found) among named
  rw [found, same]

/-- Sifting keeps exactly the first post of each identifier, as it was given and in the order in
which the identifiers first came, and counts all others; what it keeps would all be kept again. -/
theorem sift_keeps_first (given : List Content) :
    let kept := (sift given).value.kept
    let dropped := (sift given).value.dropped
    (kept.map Content.id).Nodup ∧
      (∀ id, id ∈ kept.map Content.id ↔ id ∈ given.map Content.id) ∧
      (kept.Pairwise fun a b => firstPlace given a < firstPlace given b) ∧
      (∀ c, c ∈ kept ↔ given.find? (Content.hasId c.id) = some c) ∧
      dropped + kept.length = given.length ∧
      sift kept = pure ⟨kept, 0⟩ := by
  intro kept dropped
  have distinct : (kept.map Content.id).Nodup := nodup_siftFrom [] given
  have sought (id : String) :
      kept.find? (Content.hasId id) = given.find? (Content.hasId id) :=
    find?_siftFrom List.not_mem_nil given
  refine ⟨distinct, fun id => ?_, ordered_siftFrom [] given, fun c => ?_,
    dropped_siftFrom [] given, siftFrom_of_distinct distinct fun c _ => List.not_mem_nil⟩
  · rw [mem_ids_iff, mem_ids_iff, sought]
  · rw [mem_iff_find? distinct, sought]

end NotificationRelay
