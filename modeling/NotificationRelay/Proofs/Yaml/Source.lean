import NotificationRelay.Proofs.Json.Numeral
import NotificationRelay.Proofs.Shape.Source
import NotificationRelay.Proofs.Text.Digits
import NotificationRelay.Proofs.Yaml.Flow

/-! Values in YAML: plain decimal numbers are read as they stand, and a table is read field by field
from its tokens. -/
namespace NotificationRelay.Yaml

open Json.Scan (digits_toDigits leads_toDigits)

theorem readNatural_toString (n : Nat) : readNatural (toString n) = some n := by
  obtain ⟨first, more, digits, single⟩ := leads_toDigits n
  have decimal := digits_toDigits n
  have value := Text.digitsValue_toDigits (by decide : 1 < 10) (by decide) n
  have text : (toString n).toList = first :: more := by
    rw [Nat.toString_eq_ofList_toDigits, String.toList_ofList, digits]
  rw [digits] at decimal value
  have unsigned {rest : List Char} (sign : first :: more = '+' :: rest) : False := by
    obtain ⟨rfl, -⟩ := List.cons.inj sign
    exact absurd (decimal '+' List.mem_cons_self) (by decide)
  have lone {c : Char} {rest : List Char} (zero : first :: more = '0' :: c :: rest) : False := by
    obtain ⟨rfl, behind⟩ := List.cons.inj zero
    cases (single rfl).symm.trans behind
  unfold readNatural
  rw [text]
  dsimp only
  generalize found : first :: more = all at *
  split
  case h_5 =>
    split
    · exact (unsigned rfl).elim
    · subst found
      exact value
  all_goals
    next zero =>
      split at zero
      · exact (unsigned rfl).elim
      · exact (lone zero).elim

theorem natural_toString {d : Document} {greatest n : Nat} (tag : Option String)
    (fits : n ≤ greatest) :
    d.source.natural greatest (.scalar .plain tag (toString n)) = some n := by
  change (readNatural (toString n)).bind _ = _
  rw [readNatural_toString]
  exact if_pos fits

def Node.table (members : List (String × Node)) : Node :=
  .mapping (members.map fun m => (.scalar .quoted none m.1, m.2))

theorem record_table (d : Document) (members : List (String × Node)) :
    d.source.record (.table members) = some (.inl members) := by
  have all : d.members (.table members) = some members := by
    change (members.map fun m => (Node.scalar .quoted none m.1, m.2)).mapM _ = _
    rw [List.mapM_map]
    induction members with
    | nil => rfl
    | cons member rest ih =>
      rw [List.mapM_cons, ih]
      rfl
  simp [Document.source, all]

theorem plain_table {members : List (String × Node)} (plain : ∀ m ∈ members, m.2.Plain) :
    (Node.table members).Plain := by
  refine .mapping (fun m among => ?_) fun m among => ?_
  · obtain ⟨named, _, rfl⟩ := List.mem_map.mp among
    exact .scalar ..
  · obtain ⟨named, there, rfl⟩ := List.mem_map.mp among
    exact plain named there

/-- From the tokens of a table a record is read field by field. -/
theorem take_tokens {α σ τ : Type} {name : String} {fields : Fields σ τ} {build : σ → α}
    {parts : α → σ} {members : List (String × Node)} (nodup : fields.keys.Nodup)
    (plain : ∀ m ∈ members, m.2.Plain) :
    ((Document.ofTokens? (Node.table members).tokens).bind fun d =>
        (Shape.record name fields build parts).take d.source d.root) =
      (Shape.ofMembers (fun _ => Shape.take (Document.source ⟨.table members, []⟩)) fields
        members).map build := by
  rw [Document.ofTokens?_tokens (plain_table plain), Option.bind_some]
  exact Shape.take_record nodup (record_table _ members)

end NotificationRelay.Yaml
