import NotificationRelay.Proofs.Message.Clause

/-! What a violation blames. A check that fails does so at a clause that does not hold, and what it
says of the value there is so. -/
namespace NotificationRelay

open Json

def Json.shown : Json → String
  | .text s => s
  | j => j.printCanonical

/-- What a violation says is so of the value that a path leads to. Words of a status or of a
platform come with the value and without its path. -/
inductive Says (presence : Presence) (demand : Demand) : Option Json → Path → Violation → Prop where
  | missing {found : Option Json} {path : Path} (needed : presence = .required)
      (gone : found = none ∨ found = some .null) : Says presence demand found path (.missingField path)
  | blank {path : Path} (needed : demand = .name) :
      Says presence demand (some (.text "")) path (.missingField path)
  | value {j : Json} {path : Path} (unmet : ¬demand.Met j) (null : j = .null → presence = .item)
      (reason : String) : Says presence demand (some j) path (.value path reason)
  | status {j : Json} {path : Path} (unmet : ¬demand.Met j) (there : j ≠ .null)
      (key : path.getLast? = some (.key "status")) :
      Says presence demand (some j) path (.status j.shown)
  | platform {j : Json} {path : Path} (unmet : ¬demand.Met j) (there : j ≠ .null)
      (key : path.getLast? = some (.key "platform")) :
      Says presence demand (some j) path (.platform j.shown)

/-- The violation speaks of a clause in the table that does not hold in the value at `base`. -/
def Exposes (table : List Clause) (root : Json) (base : Path) (v : Violation) : Prop :=
  ∃ c ∈ table, ∃ path, c.place.Covers path ∧ ¬c.HoldsAt root path ∧
    Says c.presence c.demand (root.at? path) (base ++ path) v

namespace Exposes

variable {table more : List Clause} {root j : Json} {base : Path} {v : Violation} {key : String}
  {members : List (String × Json)}

theorem mono (exposes : Exposes table root base v) (sub : ∀ c ∈ table, c ∈ more) :
    Exposes more root base v := by
  obtain ⟨c, among, blamed⟩ := exposes
  exact ⟨c, sub c among, blamed⟩

theorem not_hold (exposes : Exposes table root base v) : ¬∀ c ∈ table, c.Holds root := by
  intro holds
  obtain ⟨c, among, path, covers, broken, _⟩ := exposes
  exact broken (holds c among path covers)

theorem head {presence : Presence} {demand : Demand} (unmet : ¬demand.Met j)
    (null : j = .null → presence ≠ .optional)
    (told : Says presence demand (some j) base v) :
    Exposes (⟨[], presence, demand⟩ :: table) j base v := by
  refine ⟨_, List.mem_cons_self, [], .root, fun holds => ?_, by rwa [List.append_nil, at?]⟩
  rcases holds.met j rfl with met | ⟨optional, rfl⟩
  · exact unmet met
  · exact null rfl optional

theorem wrong {presence : Presence} {demand : Demand} {reason : String} (unmet : ¬demand.Met j)
    (null : j = .null → presence = .item) (refused : v = .value base reason) :
    Exposes (⟨[], presence, demand⟩ :: table) j base v := by
  refine head unmet (fun same optional => ?_) (refused ▸ .value unmet null reason)
  rw [null same] at optional
  cases optional

theorem tail {c : Clause} (exposes : Exposes table j base v) : Exposes (c :: table) j base v :=
  exposes.mono fun _ => List.mem_cons_of_mem c

theorem member (found : lookup key members = some j)
    (exposes : Exposes table j (base ++ [.key key]) v) :
    Exposes (table.map (Clause.below (.member key))) (.object members) base v := by
  obtain ⟨c, among, path, covers, broken, told⟩ := exposes
  refine ⟨_, List.mem_map_of_mem among, .key key :: path, .member key covers, ?_, ?_⟩
  · rwa [Clause.holdsAt_member found]
  · rw [Clause.at?_member found, List.append_cons]
    exact told

theorem missing {demand : Demand} (gone : present key members = none) :
    Exposes ((⟨[], .required, demand⟩ :: table).map (Clause.below (.member key)))
      (.object members) base (.missingField (base ++ [.key key])) := by
  cases found : lookup key members with
  | some j =>
    cases kind : j.isNull with
    | true =>
      obtain rfl := eq_null kind
      exact member found (head (Demand.not_met_null demand) (by simp) (.missing rfl (.inr rfl)))
    | false =>
      rw [present_eq_some.mpr ⟨found, kind⟩] at gone
      cases gone
  | none =>
    have nothing : (Json.object members).at? [.key key] = none := by
      rw [at?, found, Option.bind_none]
    refine ⟨_, List.mem_cons_self, [.key key], .member key .root, fun holds => ?_, ?_⟩
    · exact holds.there rfl [] key members rfl rfl nothing
    · exact .missing rfl (.inl nothing)

theorem item {items : List Json} {i : Nat} (found : items[i]? = some j)
    (exposes : Exposes table j (base ++ [.index i]) v) :
    Exposes (table.map (Clause.below .item)) (.list items) base v := by
  obtain ⟨c, among, path, covers, broken, told⟩ := exposes
  refine ⟨_, List.mem_map_of_mem among, .index i :: path, .item i covers, ?_, ?_⟩
  · rwa [Clause.holdsAt_item found]
  · rw [Clause.at?_item found, List.append_cons]
    exact told

end Exposes

mutual

def Rule.Fair (key : String) : Rule → Prop
  | .word words refuse => ∀ presence (path : Path) (j : Json), path.getLast? = some (.key key) →
      j ≠ .null → ¬(Demand.word words).Met j →
      Says presence (.word words) (some j) path (refuse path j)
  | .object members | .objects members => members.Fair
  | .text | .name | .natural | .number | .flag | .timestamp | .texts => True

def Members.Fair : Members → Prop
  | .none => True
  | .cons key _ rule more => rule.Fair key ∧ more.Fair

end

theorem checkThat_failure {accepted : Bool} {path : Path} {reason : String} {v : Violation}
    (refused : checkThat accepted path reason = .error v) :
    accepted = false ∧ v = .value path reason := by
  unfold checkThat at refused
  split at refused
  · cases refused
  · rename_i other
    exact ⟨by simpa using other, (Except.error.inj refused).symm⟩

theorem Rule.unmet_of_refused {rule : Rule} (plain : rule.inner = []) {path : Path} {j : Json}
    {v : Violation} (refused : rule.check path j = .error v) : ¬rule.demand.Met j := by
  intro met
  have ok : rule.check path j = .ok () := (rule.check_iff path j).mpr ⟨met, by simp [plain]⟩
  rw [ok] at refused
  cases refused

theorem checkTimestamp_failure {path : Path} {j : Json} {v : Violation}
    (refused : checkTimestamp path j = .error v) : ∃ reason, v = .value path reason := by
  unfold checkTimestamp at refused
  split at refused
  · split at refused
    · cases refused
    · exact ⟨_, (Except.error.inj refused).symm⟩
  · exact ⟨_, (Except.error.inj refused).symm⟩

/-- A rule with nothing below its value. -/
theorem Rule.plain_exposes {rule : Rule} {presence : Presence} {path : Path} {j : Json}
    {v : Violation} (plain : rule.inner = []) (there : j ≠ .null)
    (refused : rule.check path j = .error v)
    (told : ¬rule.demand.Met j → Says presence rule.demand (some j) path v) :
    Exposes (⟨[], presence, rule.demand⟩ :: rule.inner) j path v := by
  have unmet := unmet_of_refused plain refused
  exact .head unmet (fun null => absurd null there) (told unmet)

theorem checkTexts_exposes {path : Path} {items : List Json} {v : Violation}
    (refused : checkTexts path (.list items) = .error v) :
    Exposes Rule.texts.inner (.list items) path v := by
  rw [checkTexts] at refused
  split at refused
  · rename_i i other
    obtain ⟨within, broken, _⟩ := List.findIdx?_eq_some_iff_getElem.mp other
    have unmet : ¬Demand.text.Met items[i] := by
      rintro ⟨s, text⟩
      rw [text] at broken
      cases broken
    have here : Exposes [⟨[], .item, .text⟩] items[i] (path ++ [.index i]) v :=
      .wrong unmet (fun _ => rfl) (Except.error.inj refused).symm
    exact here.item (List.getElem?_eq_getElem within)
  · cases refused

/-- A value that has to be an object whatever it is, as an item of a list has to. -/
theorem Members.checkObject_exposes {rules : Members} {path : Path} {j : Json} {v : Violation}
    (inside : ∀ members, rules.check path members = .error v →
      Exposes rules.clauses (.object members) path v)
    (refused : rules.checkObject path j = .error v) :
    Exposes (⟨[], .item, .object⟩ :: rules.clauses) j path v := by
  cases j with
  | object members =>
    rw [Members.checkObject] at refused
    exact (inside members refused).tail
  | _ =>
    simp only [Members.checkObject] at refused
    exact .wrong (by simp [Demand.Met]) (fun _ => rfl) (Except.error.inj refused).symm

mutual

/-- What a rule refuses is exposed by a clause at the value or below it. -/
theorem Rule.check_exposes {presence : Presence} {key : String} {path : Path}
    (last : path.getLast? = some (.key key)) {j : Json} (there : j ≠ .null) {v : Violation} :
    (rule : Rule) → rule.Fair key → rule.check path j = .error v →
      Exposes (⟨[], presence, rule.demand⟩ :: rule.inner) j path v
  | .text, _, refused | .natural, _, refused | .number, _, refused | .flag, _, refused => by
    refine Rule.plain_exposes rfl there refused fun unmet => ?_
    rw [Rule.check] at refused
    exact (checkThat_failure refused).2 ▸ .value unmet (fun null => absurd null there) _
  | .timestamp, _, refused => by
    refine Rule.plain_exposes rfl there refused fun unmet => ?_
    rw [Rule.check] at refused
    obtain ⟨reason, rfl⟩ := checkTimestamp_failure refused
    exact .value unmet (fun null => absurd null there) _
  | .name, _, refused => by
    refine Rule.plain_exposes rfl there refused fun unmet => ?_
    cases j with
    | text s =>
      rw [Rule.check] at refused
      split at refused
      · rename_i empty
        obtain rfl := String.isEmpty_iff.mp empty
        exact Except.error.inj refused ▸ .blank rfl
      · cases refused
    | _ =>
      simp only [Rule.check] at refused
      exact Except.error.inj refused ▸ .value unmet (fun null => absurd null there) _
  | .word words refuse, fair, refused => by
    refine Rule.plain_exposes rfl there refused fun unmet => ?_
    have told := fair presence path j last there unmet
    cases j with
    | text s =>
      rw [Rule.check] at refused
      split at refused
      · cases refused
      · exact Except.error.inj refused ▸ told
    | _ =>
      simp only [Rule.check] at refused
      exact Except.error.inj refused ▸ told
  | .texts, _, refused => by
    rw [Rule.check] at refused
    cases j with
    | list items => exact (checkTexts_exposes refused).tail
    | _ =>
      simp only [checkTexts] at refused
      exact .wrong (by simp [Rule.demand, Demand.Met]) (fun null => absurd null there)
        (Except.error.inj refused).symm
  | .object rules, fair, refused => by
    rw [Rule.check] at refused
    cases j with
    | object members =>
      rw [Members.checkObject] at refused
      exact (Members.check_exposes rules fair refused).tail
    | _ =>
      simp only [Members.checkObject] at refused
      exact .wrong (by simp [Rule.demand, Demand.Met]) (fun null => absurd null there)
        (Except.error.inj refused).symm
  | .objects rules, fair, refused => by
    cases j with
    | list items =>
      rw [Rule.check] at refused
      obtain ⟨⟨item, i⟩, indexed, refused⟩ := forM_failure refused
      have exposes := Members.checkObject_exposes (fun _ => Members.check_exposes rules fair) refused
      exact (exposes.item (List.mem_zipIdx_iff_getElem?.mp indexed)).tail
    | _ =>
      simp only [Rule.check] at refused
      exact .wrong (by simp [Rule.demand, Demand.Met]) (fun null => absurd null there)
        (Except.error.inj refused).symm

theorem Members.check_exposes {path : Path} {v : Violation} {members : List (String × Json)} :
    (rules : Members) → rules.Fair → rules.check path members = .error v →
      Exposes rules.clauses (.object members) path v
  | .none, _, refused => by
    rw [Members.check] at refused
    cases refused
  | .cons key required rule more, ⟨fair, others⟩, refused => by
    have later (refused : more.check path members = .error v) (table : List Clause) :
        Exposes (table ++ more.clauses) (.object members) path v :=
      (Members.check_exposes more others refused).mono fun _ => List.mem_append_right _
    rw [Members.clauses]
    rw [Members.check] at refused
    cases found : present key members with
    | some j =>
      rw [found] at refused
      obtain ⟨held, kind⟩ := present_eq_some.mp found
      have there : j ≠ .null := by
        rintro rfl
        cases kind
      rcases bind_failure refused with here | ⟨_, _, rest⟩
      · refine Exposes.mono (Exposes.member held ?_) fun _ => List.mem_append_left _
        exact Rule.check_exposes List.getLast?_concat there rule fair here
      · exact later rest _
    | none =>
      rw [found] at refused
      cases required with
      | false => exact later refused _
      | true =>
        cases refused
        exact (Exposes.missing found).mono fun _ => List.mem_append_left _

end

end NotificationRelay
