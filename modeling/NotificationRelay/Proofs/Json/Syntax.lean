import NotificationRelay.Proofs.Json.Spelling

/-! What the reader of trees complains about: the spelling of JSON, and never what is spelled. So its
complaints have words of their own only. -/
namespace NotificationRelay.Json

theorem Cause.length_toText_le {cause : Cause} (syntactic : cause.isContent = false) :
    cause.toText.length ≤ 63 := by
  cases cause <;> first | decide | cases syntactic

namespace Scan

def Syntactic {α : Type} (result : Except Fault α) : Prop :=
  ∀ ⦃f⦄, result = .error f → f.cause.isContent = false

section

variable {α β : Type} {result : Except Fault α}

theorem syntactic_ok {a : α} : Syntactic (.ok a : Except Fault α) := nofun

theorem syntactic_fault {cause : Cause} {rest : Bytes} (syntactic : cause.isContent = false) :
    Syntactic (fault cause rest : Except Fault α) := by
  intro f fails
  cases fails
  exact syntactic

/-- A fault is passed on as it is, or with the place that it is inside of. -/
theorem Syntactic.error {f g : Fault} (syntactic : Syntactic result) (fails : result = .error f)
    (same : g.cause = f.cause) : Syntactic (.error g : Except Fault β) := by
  intro h found
  cases found
  exact same ▸ syntactic fails

theorem Syntactic.map {g : α → β} (syntactic : Syntactic result) : Syntactic (result.map g) := by
  intro f fails
  cases result with
  | ok a => cases fails
  | error e =>
    cases fails
    exact syntactic rfl

theorem Syntactic.bind {next : α → Except Fault β} (first : Syntactic result)
    (later : ∀ a, Syntactic (next a)) : Syntactic (result >>= next) := by
  cases result with
  | ok a => exact later a
  | error e => exact first.error rfl rfl

theorem syntactic_ite {condition : Prop} [Decidable condition] {other : Except Fault α}
    (yes : Syntactic result) (no : Syntactic other) :
    Syntactic (if condition then result else other) := by
  split
  · exact yes
  · exact no

end

theorem literal_syntactic : (word : List Char) → (bytes : Bytes) → Syntactic (literal word bytes)
  | [], _ => syntactic_ok
  | _ :: _, [] => syntactic_fault rfl
  | c :: more, b :: rest => by
    rw [literal]
    split
    · split
      · exact syntactic_ok
      · rename_i fails
        exact (literal_syntactic more rest).error fails rfl
    · exact syntactic_fault rfl

theorem hexCode_syntactic (bytes : Bytes) : Syntactic (hexCode bytes) := by
  unfold hexCode
  split
  · split
    · exact syntactic_ok
    · exact syntactic_fault rfl
  · exact syntactic_fault rfl

theorem trailingSurrogate_syntactic (bytes : Bytes) : Syntactic (trailingSurrogate bytes) := by
  unfold trailingSurrogate
  split
  · exact syntactic_fault rfl
  · refine syntactic_ite (syntactic_fault rfl) ?_
    split
    · exact syntactic_fault rfl
    · refine syntactic_ite (syntactic_fault rfl) ?_
      split
      · rename_i fails
        exact (hexCode_syntactic _).error fails rfl
      · split
        · exact syntactic_ok
        · exact syntactic_fault rfl

theorem unicodeEscape_syntactic (bytes : Bytes) : Syntactic (unicodeEscape bytes) := by
  refine (hexCode_syntactic bytes).bind fun first => syntactic_ite (syntactic_fault rfl) ?_
  refine syntactic_ite ((trailingSurrogate_syntactic first.rest).bind fun second => ?_) syntactic_ok
  exact syntactic_ok

theorem escape_syntactic (bytes : Bytes) : Syntactic (escape bytes) := by
  unfold escape
  split
  · exact syntactic_fault rfl
  · split
    · exact syntactic_ok
    · refine syntactic_ite ?_ (syntactic_fault rfl)
      split
      · exact syntactic_ok
      · rename_i fails
        exact (unicodeEscape_syntactic _).error fails rfl

theorem textBytes_syntactic (bytes : Bytes) : Syntactic (textBytes bytes) := by
  cases bytes with
  | nil =>
    rw [textBytes]
    exact syntactic_fault rfl
  | cons b rest =>
    rw [textBytes]
    refine syntactic_ite syntactic_ok (syntactic_ite ?_ (syntactic_ite (syntactic_fault rfl) ?_))
    · split
      · rename_i fails
        exact (escape_syntactic rest).error fails rfl
      · rename_i plain _
        have shorter := plain.shorter
        split
        · rename_i fails
          exact (textBytes_syntactic plain.rest).error fails rfl
        · exact syntactic_ok
    · split
      · rename_i fails
        exact (textBytes_syntactic rest).error fails rfl
      · exact syntactic_ok
termination_by bytes.length
decreasing_by
  · simp
    omega
  · simp

theorem text_syntactic (bytes : Bytes) : Syntactic (text bytes) := by
  unfold text
  split
  · rename_i fails
    exact (textBytes_syntactic bytes).error fails rfl
  · split
    · exact syntactic_ok
    · intro f fails
      cases fails
      rfl

theorem nextItem_syntactic (first : Bool) (bytes : Bytes) : Syntactic (nextItem first bytes) := by
  unfold nextItem
  split
  · exact syntactic_fault rfl
  · refine syntactic_ite syntactic_ok (syntactic_ite syntactic_ok (syntactic_ite ?_ ?_))
    · split
      · exact syntactic_fault rfl
      · exact syntactic_ite (syntactic_fault rfl) syntactic_ok
    · exact syntactic_fault rfl

theorem nextMember_syntactic (first : Bool) (bytes : Bytes) : Syntactic (nextMember first bytes) := by
  unfold nextMember
  split
  · exact syntactic_fault rfl
  · refine syntactic_ite syntactic_ok (syntactic_ite ?_ (syntactic_ite ?_ ?_))
    · exact syntactic_ite syntactic_ok (syntactic_fault rfl)
    · split
      · exact syntactic_fault rfl
      · exact syntactic_ite syntactic_ok (syntactic_ite (syntactic_fault rfl) (syntactic_fault rfl))
    · exact syntactic_fault rfl

theorem colon_syntactic (bytes : Bytes) : Syntactic (colon bytes) := by
  unfold colon
  split
  · exact syntactic_fault rfl
  · exact syntactic_ite syntactic_ok (syntactic_fault rfl)

section

variable {α : Type} {item : (bytes : Bytes) → Except Fault (Step α bytes.length)}
  (inside : ∀ bytes, Syntactic (item bytes))

include inside

theorem items_syntactic (index : Nat) (bytes : Bytes) : Syntactic (items item index bytes) := by
  rw [items]
  split
  · rename_i fails
    exact (nextItem_syntactic _ bytes).error fails rfl
  · exact syntactic_ok
  · split
    · rename_i fails
      exact (inside _).error fails rfl
    · rename_i head _
      have shorter := head.shorter
      split
      · rename_i fails
        exact (items_syntactic (index + 1) head.rest).error fails rfl
      · exact syntactic_ok
termination_by bytes.length
decreasing_by omega

theorem memberValue_syntactic (key : String) (bytes : Bytes) :
    Syntactic (memberValue item key bytes) := by
  unfold memberValue
  split
  · rename_i fails
    exact (colon_syntactic bytes).error fails rfl
  · split
    · rename_i fails
      exact (inside _).error fails rfl
    · exact syntactic_ok

end

theorem members_syntactic {σ : Type}
    {visit : σ → String → (bytes : Bytes) → Except Fault (Step σ bytes.length)}
    (inside : ∀ state key bytes, Syntactic (visit state key bytes)) (first : Bool) (state : σ)
    (bytes : Bytes) : Syntactic (members visit first state bytes) := by
  rw [members]
  split
  · rename_i fails
    exact (nextMember_syntactic first bytes).error fails rfl
  · exact syntactic_ok
  · split
    · rename_i fails
      exact (text_syntactic _).error fails rfl
    · rename_i key _
      split
      · rename_i fails
        exact (inside _ _ _).error fails rfl
      · rename_i value _
        have := key.shorter
        have := value.shorter
        split
        · rename_i fails
          exact (members_syntactic inside false value.value value.rest).error fails rfl
        · exact syntactic_ok
termination_by bytes.length
decreasing_by omega

theorem finished_syntactic (bytes : Bytes) : Syntactic (finished bytes) := by
  unfold finished
  split
  · exact syntactic_ok
  · exact syntactic_fault rfl

section

variable {negative : Bool} {significand : Nat} {exponent : Int}

theorem realOf_syntactic {rest : Bytes} :
    Syntactic (realOf negative significand exponent rest) := by
  unfold realOf
  split
  · exact syntactic_ok
  · exact syntactic_fault rfl

theorem exponentPart_syntactic (bytes : Bytes) :
    Syntactic (exponentPart negative significand exponent bytes) := by
  unfold exponentPart
  split
  · exact syntactic_fault rfl
  · refine syntactic_ite ?_ (syntactic_fault rfl)
    dsimp only
    split
    · split
      · exact syntactic_ok
      · rename_i fails
        exact realOf_syntactic.error fails rfl
    · exact syntactic_ite (syntactic_fault rfl) syntactic_ok

theorem exponentOrEnd_syntactic (bytes : Bytes) :
    Syntactic (exponentOrEnd negative significand exponent bytes) := by
  cases bytes with
  | nil =>
    rw [exponentOrEnd]
    split
    · exact syntactic_ok
    · rename_i fails
      exact realOf_syntactic.error fails rfl
  | cons b rest =>
    rw [exponentOrEnd]
    refine syntactic_ite ?_ ?_
    · split
      · exact syntactic_ok
      · rename_i fails
        exact (exponentPart_syntactic _).error fails rfl
    · split
      · exact syntactic_ok
      · rename_i fails
        exact realOf_syntactic.error fails rfl

theorem fractionPart_syntactic (bytes : Bytes) :
    Syntactic (fractionPart negative significand exponent bytes) := by
  unfold fractionPart
  dsimp only
  refine syntactic_ite ?_ ?_
  · split
    · exact syntactic_fault rfl
    · exact syntactic_fault rfl
  · split
    · exact syntactic_ok
    · rename_i fails
      exact (exponentOrEnd_syntactic _).error fails rfl

theorem afterDigits_syntactic (exceeding : Nat) (bytes : Bytes) :
    Syntactic (afterDigits negative significand exceeding bytes) := by
  cases bytes with
  | nil =>
    rw [afterDigits]
    exact syntactic_ite syntactic_ok (exponentOrEnd_syntactic _)
  | cons b rest =>
    rw [afterDigits]
    refine syntactic_ite ?_ (syntactic_ite syntactic_ok (exponentOrEnd_syntactic _))
    split
    · exact syntactic_ok
    · rename_i fails
      exact (fractionPart_syntactic _).error fails rfl

theorem unsigned_syntactic (bytes : Bytes) : Syntactic (unsigned negative bytes) := by
  unfold unsigned
  split
  · exact syntactic_fault rfl
  · refine syntactic_ite ?_ (syntactic_ite ?_ (syntactic_fault rfl))
    · split
      · exact afterDigits_syntactic _ _
      · exact syntactic_ite (syntactic_fault rfl) (afterDigits_syntactic _ _)
    · exact (afterDigits_syntactic _ _).map

theorem number_syntactic (bytes : Bytes) : Syntactic (number bytes) := by
  unfold number
  split
  · exact syntactic_fault rfl
  · exact syntactic_ite (unsigned_syntactic _).map (unsigned_syntactic _)

end

theorem scalar_syntactic (b : UInt8) (rest : Bytes) : Syntactic (scalar b rest) := by
  unfold scalar
  split
  · exact (literal_syntactic _ _).map
  · exact (literal_syntactic _ _).map
  · exact (literal_syntactic _ _).map
  · exact (text_syntactic _).map
  · exact (number_syntactic _).map
  · exact syntactic_ite (number_syntactic _).map (syntactic_fault rfl)

theorem valueAround_syntactic
    {inner : Option ((bytes : Bytes) → Except Fault (Step Json bytes.length))}
    (inside : ∀ read ∈ inner, ∀ bytes, Syntactic (read bytes)) (bytes : Bytes) :
    Syntactic (valueAround inner bytes) := by
  unfold valueAround
  split
  · exact syntactic_fault rfl
  · refine syntactic_ite ?_ (syntactic_ite ?_ (scalar_syntactic _ _).map)
    · split
      · exact syntactic_fault rfl
      · exact (items_syntactic (inside _ rfl) _ _).map
    · split
      · exact syntactic_fault rfl
      · refine Syntactic.map (members_syntactic (fun read key bytes => ?_) _ _ _)
        exact (memberValue_syntactic (inside _ rfl) key bytes).map

theorem value_syntactic : (depth : Nat) → (bytes : Bytes) → Syntactic (value depth bytes)
  | 0, bytes => valueAround_syntactic (by simp) bytes
  | depth + 1, bytes => by
    refine valueAround_syntactic (fun read held => ?_) bytes
    cases held
    exact value_syntactic depth

end Scan

/-- A text that cannot be read is not spelled as JSON. -/
theorem read_syntactic {source : Bytes} {f : Fault} (fails : read source = .error f) :
    f.cause.isContent = false := by
  have syntactic : Scan.Syntactic (read source) := by
    unfold read
    split
    · rename_i fails
      exact (Scan.value_syntactic _ _).error fails rfl
    · split
      · rename_i fails
        exact (Scan.finished_syntactic _).error fails rfl
      · exact Scan.syntactic_ok
  exact syntactic fails

end NotificationRelay.Json
