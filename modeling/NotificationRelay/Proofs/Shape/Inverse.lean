import NotificationRelay.Proofs.Json.Canonical
import NotificationRelay.Proofs.Json.Printed
import NotificationRelay.Shape.Writer

/-! What a shape writes, it reads again. A shape is faithful if every value of it can be told from
its tree, which the shapes of messages are; only reals and instants may change on the way. -/
namespace NotificationRelay

open Json Json.Scan

/-- Finite, and read from its own digits as it is. -/
def Binary64.Restored (x : Binary64) : Prop :=
  x.isFinite ∧ Json.read (Utf8.encode x.jsonText) = .ok (.number (.real x))

instance (x : Binary64) : Decidable x.Restored :=
  decidable_of_iff (x.isFinite = true ∧ (match Json.read (Utf8.encode x.jsonText) with
    | .ok (.number (.real y)) => decide (y = x)
    | _ => false) = true) <| by
    refine and_congr_right fun _ => ⟨fun same => ?_, fun read => ?_⟩
    · split at same
      · rename_i read
        rw [read, of_decide_eq_true same]
      · cases same
    · rw [read]
      exact decide_eq_true rfl

namespace Shape

/-- Null is never written for a value whose reals are finite. -/
def Solid {α : Type} : Shape α → Prop
  | .optional _ | .nullable _ | .tree => False
  | .nullAs _ shape => shape.Solid
  | _ => True

mutual

def Faithful {α : Type} : Shape α → Prop
  | .word | .halfWord | .real | .text | .flag | .instant => True
  | .natural _ _ | .tree => False
  | .choice vocabulary => ∀ a, vocabulary.find? (vocabulary.word a) = some a
  | .optional shape | .nullable shape | .nullAs _ shape => shape.Solid ∧ shape.Faithful
  | .sequence shape => shape.Faithful
  | .record _ fields build parts =>
    fields.keys.Nodup ∧ FieldsFaithful fields ∧ (∀ a, build (parts a) = a) ∧
      ∀ values, parts (build values) = values

def FieldsFaithful {σ τ : Type} : Fields σ τ → Prop
  | .none => True
  | .cons _ fallback shape more =>
    (∀ a, shape.isAbsent a = true → fallback = some a) ∧ shape.Faithful ∧ FieldsFaithful more

end

mutual

def levels {α : Type} : Shape α → Nat
  | .optional shape | .nullable shape | .nullAs _ shape => shape.levels
  | .sequence shape => shape.levels + 1
  | .record _ fields _ _ => fieldLevels fields + 1
  | _ => 0

def fieldLevels {σ τ : Type} : Fields σ τ → Nat
  | .none => 0
  | .cons _ _ shape more => max shape.levels (fieldLevels more)

end

mutual

def All {α : Type} (real : Binary64 → Prop) (instant : Time.Instant → Prop) : Shape α → α → Prop
  | .real, x => real x
  | .instant, t => instant t
  | .optional shape, a? => ∀ a, a? = some a → shape.All real instant a
  | .nullable shape, a? => ∀ a, a? = some a → shape.All real instant a
  | .nullAs _ shape, a => shape.All real instant a
  | .sequence shape, items => ∀ a ∈ items, shape.All real instant a
  | .record _ fields _ parts, a => FieldsAll real instant fields (parts a)
  | _, _ => True

def FieldsAll {σ τ : Type} (real : Binary64 → Prop) (instant : Time.Instant → Prop) :
    Fields σ τ → σ → Prop
  | .none, _ => True
  | .cons _ _ shape more, (a, values) => shape.All real instant a ∧ FieldsAll real instant more values

end

mutual

def mapInstant {α : Type} (f : Time.Instant → Time.Instant) : Shape α → α → α
  | .instant, t => f t
  | .optional shape, a? => a?.map (shape.mapInstant f)
  | .nullable shape, a? => a?.map (shape.mapInstant f)
  | .nullAs _ shape, a => shape.mapInstant f a
  | .sequence shape, items => items.map (shape.mapInstant f)
  | .record _ fields build parts, a => build (fieldsMapInstant f fields (parts a))
  | _, a => a

def fieldsMapInstant {σ τ : Type} (f : Time.Instant → Time.Instant) : Fields σ τ → σ → σ
  | .none, () => ()
  | .cons _ _ shape more, (a, values) => (shape.mapInstant f a, fieldsMapInstant f more values)

end

variable {real : Binary64 → Prop} {instant : Time.Instant → Prop} {f : Time.Instant → Time.Instant}

section

variable {α σ τ : Type} {key : String} {fallback : Option α} {shape : Shape α} {more : Fields σ τ}
  {a : α} {values : σ}

theorem writeMembers_cons : writeMembers (.cons key fallback shape more) (a, values) =
    if shape.isAbsent a then writeMembers more values
    else (key, shape.write a) :: writeMembers more values := by
  rw [writeMembers]

theorem keys_writeMembers {σ τ : Type} : (fields : Fields σ τ) → (values : σ) →
    ((writeMembers fields values).map (·.1)).Sublist fields.keys
  | .none, () => by
    rw [writeMembers]
    exact .slnil
  | .cons key _ shape more, (a, values) => by
    have others := keys_writeMembers more values
    rw [writeMembers_cons, Fields.keys]
    split
    · exact others.cons key
    · exact others.cons_cons key

theorem lookup_writeMembers_fresh (fresh : key ∉ more.keys) :
    lookup key (writeMembers more values) = none :=
  lookup_eq_none_of_notMem fun among => fresh ((keys_writeMembers more values).mem among)

/-- A member is found under its own key. -/
theorem lookup_writeMembers_self (fresh : key ∉ more.keys) :
    lookup key (writeMembers (.cons key fallback shape more) (a, values)) =
      if shape.isAbsent a then none else some (shape.write a) := by
  rw [writeMembers_cons]
  split
  · exact lookup_writeMembers_fresh fresh
  · rw [lookup_cons, lookup_writeMembers_fresh fresh, if_pos rfl]
    rfl

theorem lookup_writeMembers_other {other : String} (apart : key ≠ other) :
    lookup other (writeMembers (.cons key fallback shape more) (a, values)) =
      lookup other (writeMembers more values) := by
  rw [writeMembers_cons]
  split
  · rfl
  · rw [lookup_cons, if_neg apart, Option.or_none]

theorem ofLookup_congr {σ τ : Type} {find find' : String → Option Json} :
    (fields : Fields σ τ) → (∀ key ∈ fields.keys, find key = find' key) →
      fields.ofLookup find = fields.ofLookup find'
  | .none, _ => rfl
  | .cons key _ shape more, same => by
    rw [Fields.ofLookup, Fields.ofLookup, same key List.mem_cons_self,
      ofLookup_congr more fun other among => same other (List.mem_cons_of_mem key among)]

end

theorem isNull_write {α : Type} {a : α} : {shape : Shape α} → shape.Solid →
    shape.All (fun x => x.isFinite) instant a → (shape.write a).isNull = false
  | .real, _, finite => by
    have held : Binary64.isFinite a = true := finite
    rw [write, writeReal, if_pos held]
    rfl
  | .nullAs _ shape, solid, all => by
    rw [write]
    exact isNull_write (show shape.Solid from solid) all
  | .word, _, _ | .halfWord, _, _ | .natural _ _, _, _ | .text, _, _ | .flag, _, _
  | .instant, _, _ | .choice _, _, _ | .sequence _, _, _ | .record .., _, _ => by
    rw [write]
    rfl

theorem optional?_of_solid {α : Type} {shape : Shape α} {a b : α} {item : Json → Option α}
    (present : (shape.write a).isNull = false) (read : item (shape.write a) = some b) :
    (shape.write a).optional? item = some (some b) := by
  have same : (shape.write a).optional? item = (item (shape.write a)).map some := by
    generalize shape.write a = j at present
    cases j with
    | null => cases present
    | _ => rfl
  rw [same, read]
  rfl

/-- What is left out holds no instant. -/
theorem mapInstant_of_isAbsent {α : Type} : {shape : Shape α} → {a : α} → shape.isAbsent a = true →
    shape.mapInstant f a = a
  | .optional _, none, _ => rfl

theorem mapM_map_eq_some {α β γ : Type} {f : α → β} {g : β → Option γ} {h : α → γ} {items : List α}
    (each : ∀ a ∈ items, g (f a) = some (h a)) : (items.map f).mapM g = some (items.map h) := by
  induction items with
  | nil => rfl
  | cons a items ih =>
    obtain ⟨first, others⟩ := List.forall_mem_cons.mp each
    rw [List.map_cons, List.mapM_cons, first, ih others]
    rfl

mutual

/-- What is written is read again, with the instants that their texts are read as. -/
theorem ofJson?_write {α : Type} : (shape : Shape α) → shape.Faithful → (a : α) →
    shape.All (fun x => x.isFinite) (fun t => Time.parseLenient t.toText = .ok (f t)) a →
    shape.ofJson? (shape.write a) = some (shape.mapInstant f a)
  | .word, _, n, _ => by
    have fits : n.toNat ≤ greatestWord := Nat.le_of_lt_succ n.toNat_lt
    rw [write, ofJson?, natural?, if_pos fits]
    exact congrArg some (UInt64.ofNat_toNat)
  | .halfWord, _, n, _ => by
    have fits : n.toNat ≤ greatest 32 := Nat.le_of_lt_succ n.toNat_lt
    rw [write, ofJson?, natural?, if_pos fits]
    exact congrArg some (UInt32.ofNat_toNat)
  | .real, _, x, finite => by
    have held : Binary64.isFinite x = true := finite
    rw [write, ofJson?, writeReal, if_pos held]
    rfl
  | .text, _, s, _ => by rw [write, ofJson?, text?]; rfl
  | .flag, _, b, _ => by rw [write, ofJson?, flag?]; rfl
  | .instant, _, t, parsed => by
    have held : Time.parseLenient t.toText = .ok (f t) := parsed
    rw [write, ofJson?, text?, Option.bind_some, held]
    rfl
  | .choice _, found, a, _ => by
    rw [write, ofJson?, word?]
    exact found a
  | .optional shape, faithful, none, _ => by
    rw [write, ofJson?]
    rfl
  | .optional shape, faithful, some a, all => by
    rw [write, ofJson?]
    exact optional?_of_solid (isNull_write faithful.1 (all a rfl))
      (ofJson?_write shape faithful.2 a (all a rfl))
  | .nullable shape, faithful, none, _ => by
    rw [write, ofJson?]
    rfl
  | .nullable shape, faithful, some a, all => by
    rw [write, ofJson?]
    exact optional?_of_solid (isNull_write faithful.1 (all a rfl))
      (ofJson?_write shape faithful.2 a (all a rfl))
  | .nullAs given shape, faithful, a, all => by
    rw [write, ofJson?, optional?_of_solid (isNull_write faithful.1 all)
      (ofJson?_write shape faithful.2 a all)]
    rfl
  | .sequence shape, faithful, items, all => by
    rw [write, ofJson?, items?, Option.bind_some]
    have each : ∀ a ∈ items, shape.ofJson? (shape.write a) = some (shape.mapInstant f a) :=
      fun a among => ofJson?_write shape faithful a (all a among)
    exact mapM_map_eq_some each
  | .record _ fields build parts, faithful, a, all => by
    have once : ((writeMembers fields (parts a)).map (·.1)).Nodup :=
      (keys_writeMembers fields (parts a)).nodup faithful.1
    have single : ¬∃ key ∈ fields.keys, 1 < occurrences key (writeMembers fields (parts a)) := by
      rintro ⟨key, _, twice⟩
      exact absurd (occurrences_le_one once key) (Nat.not_le.mpr twice)
    rw [write, ofJson?_object faithful.1, if_neg single,
      ofLookup_writeMembers fields faithful.1 faithful.2.1 (parts a) all, Option.map_some]
    rfl

theorem ofLookup_writeMembers {σ τ : Type} : (fields : Fields σ τ) → fields.keys.Nodup →
    FieldsFaithful fields → (values : σ) →
    FieldsAll (fun x => x.isFinite) (fun t => Time.parseLenient t.toText = .ok (f t)) fields values →
    (fields.ofLookup fun key => lookup key (writeMembers fields values)) =
      some (fieldsMapInstant f fields values)
  | .none, _, _, (), _ => rfl
  | .cons key fallback shape more, nodup, lawful, (a, values), all => by
    obtain ⟨absent, faithful, others⟩ := lawful
    obtain ⟨first, rest⟩ := all
    obtain ⟨fresh, nodup⟩ := List.nodup_cons.mp nodup
    have later := ofLookup_writeMembers more nodup others values rest
    have same : (more.ofLookup fun key' =>
        lookup key' (writeMembers (.cons key fallback shape more) (a, values))) =
          some (fieldsMapInstant f more values) := by
      rw [← later]
      refine ofLookup_congr more fun other among => lookup_writeMembers_other ?_
      rintro rfl
      exact fresh among
    refine Fields.ofLookup_cons_eq_some.mpr ⟨?_, same⟩
    rw [lookup_writeMembers_self fresh]
    split
    · rename_i missing
      rw [mapInstant_of_isAbsent missing]
      exact absent a missing
    · exact ofJson?_write shape faithful a first

end

mutual

theorem All.imp {α : Type} {real' : Binary64 → Prop} {instant' : Time.Instant → Prop}
    (reals : ∀ x, real x → real' x) (instants : ∀ t, instant t → instant' t) :
    (shape : Shape α) → (a : α) → shape.All real instant a → shape.All real' instant' a
  | .real, x, all => reals x all
  | .instant, t, all => instants t all
  | .optional shape, _, all => fun a held => All.imp reals instants shape a (all a held)
  | .nullable shape, _, all => fun a held => All.imp reals instants shape a (all a held)
  | .nullAs _ shape, a, all => All.imp reals instants shape a all
  | .sequence shape, _, all => fun a among => All.imp reals instants shape a (all a among)
  | .record _ fields _ parts, a, all => FieldsAll.imp reals instants fields (parts a) all
  | .word, _, _ | .halfWord, _, _ | .natural _ _, _, _ | .text, _, _ | .flag, _, _
  | .choice _, _, _ | .tree, _, _ => trivial

theorem FieldsAll.imp {σ τ : Type} {real' : Binary64 → Prop} {instant' : Time.Instant → Prop}
    (reals : ∀ x, real x → real' x) (instants : ∀ t, instant t → instant' t) :
    (fields : Fields σ τ) → (values : σ) → FieldsAll real instant fields values →
      FieldsAll real' instant' fields values
  | .none, _, _ => trivial
  | .cons _ _ shape more, (a, values), all =>
    ⟨All.imp reals instants shape a all.1, FieldsAll.imp reals instants more values all.2⟩

end

mutual

theorem printable_write {α : Type} : (shape : Shape α) → shape.Faithful → (a : α) →
    {depth : Nat} → shape.levels ≤ depth → Printable depth (shape.write a)
  | .word, _, n, _, _ => by
    rw [write]
    exact .natural (Nat.le_of_lt_succ n.toNat_lt)
  | .halfWord, _, n, _, _ => by
    rw [write]
    exact .natural (Nat.le_trans (Nat.le_of_lt_succ n.toNat_lt) (by decide))
  | .real, _, x, _, _ => by
    rw [write, writeReal]
    split
    · rename_i finite
      exact .real finite
    · exact .null
  | .text, _, s, _, _ => by
    rw [write]
    exact .text s
  | .flag, _, b, _, _ => by
    rw [write]
    exact .flag b
  | .instant, _, t, _, _ => by
    rw [write]
    exact .text _
  | .choice _, _, a, _, _ => by
    rw [write]
    exact .text _
  | .optional shape, faithful, none, _, _ => by
    rw [write]
    exact .null
  | .optional shape, faithful, some a, _, within => by
    rw [write]
    exact printable_write shape faithful.2 a within
  | .nullable shape, faithful, none, _, _ => by
    rw [write]
    exact .null
  | .nullable shape, faithful, some a, _, within => by
    rw [write]
    exact printable_write shape faithful.2 a within
  | .nullAs given shape, faithful, a, _, within => by
    rw [write]
    exact printable_write shape faithful.2 a within
  | .sequence shape, faithful, items, depth + 1, within => by
    rw [write]
    refine .list fun j among => ?_
    obtain ⟨a, _, rfl⟩ := List.mem_map.mp among
    exact printable_write shape faithful a (Nat.le_of_succ_le_succ within)
  | .record _ fields build parts, faithful, a, depth + 1, within => by
    rw [write]
    exact .object (printable_writeMembers fields faithful.2.1 (parts a) (Nat.le_of_succ_le_succ within))

theorem printable_writeMembers {σ τ : Type} : (fields : Fields σ τ) → FieldsFaithful fields →
    (values : σ) → {depth : Nat} → fieldLevels fields ≤ depth →
    ∀ m ∈ writeMembers fields values, Printable depth m.2
  | .none, _, (), _, _ => by
    rw [writeMembers]
    exact fun m among => absurd among List.not_mem_nil
  | .cons key fallback shape more, faithful, (a, values), depth, within => by
    have bounds := Nat.max_le.mp within
    have others := printable_writeMembers more faithful.2.2 values bounds.2
    rw [writeMembers_cons]
    split
    · exact others
    · exact List.forall_mem_cons.mpr ⟨printable_write shape faithful.2.1 a bounds.1, others⟩

end

mutual

theorem mapReal_write {α : Type} {f : Binary64 → Binary64} : (shape : Shape α) → shape.Faithful →
    (a : α) → shape.All (fun x => f x = x) instant a → mapReal f (shape.write a) = shape.write a
  | .word, _, n, _ | .halfWord, _, n, _ => by rw [write]; rfl
  | .real, _, x, kept => by
    have same : f x = x := kept
    rw [write, writeReal]
    split
    · rw [mapReal, same]
    · rfl
  | .text, _, s, _ | .instant, _, s, _ | .choice _, _, s, _ => by rw [write]; rfl
  | .flag, _, b, _ => by rw [write]; rfl
  | .optional shape, _, none, _ | .nullable shape, _, none, _ => by rw [write]; rfl
  | .optional shape, faithful, some a, all => by
    rw [write]
    exact mapReal_write shape faithful.2 a (all a rfl)
  | .nullable shape, faithful, some a, all => by
    rw [write]
    exact mapReal_write shape faithful.2 a (all a rfl)
  | .nullAs given shape, faithful, a, all => by
    rw [write]
    exact mapReal_write shape faithful.2 a all
  | .sequence shape, faithful, items, all => by
    rw [write, mapReal_list, List.map_map]
    refine congrArg Json.list (List.map_congr_left fun a among => ?_)
    exact mapReal_write shape faithful a (all a among)
  | .record _ fields build parts, faithful, a, all => by
    rw [write, mapReal_object, mapReal_writeMembers fields faithful.2.1 (parts a) all]

theorem mapReal_writeMembers {σ τ : Type} {f : Binary64 → Binary64} : (fields : Fields σ τ) →
    FieldsFaithful fields → (values : σ) → FieldsAll (fun x => f x = x) instant fields values →
    (writeMembers fields values).map (fun m => (m.1, mapReal f m.2)) = writeMembers fields values
  | .none, _, (), _ => by
    rw [writeMembers]
    rfl
  | .cons key fallback shape more, faithful, (a, values), all => by
    have others := mapReal_writeMembers more faithful.2.2 values all.2
    rw [writeMembers_cons]
    split
    · exact others
    · rw [List.map_cons, others, mapReal_write shape faithful.2.1 a all.1]

end

mutual

/-- A value stays if and only if each of its instants does. -/
theorem mapInstant_eq_self_iff {α : Type} : (shape : Shape α) → shape.Faithful → (a : α) →
    (shape.mapInstant f a = a ↔ shape.All (fun _ => True) (fun t => f t = t) a)
  | .instant, _, _ => Iff.rfl
  | .optional shape, _, none | .nullable shape, _, none =>
    ⟨fun _ a held => (by cases held), fun _ => rfl⟩
  | .optional shape, faithful, some a | .nullable shape, faithful, some a => by
    have inner := mapInstant_eq_self_iff shape faithful.2 a
    constructor
    · rintro same _ ⟨⟩
      exact inner.mp (Option.some.inj same)
    · exact fun all => congrArg some (inner.mpr (all a rfl))
  | .nullAs _ shape, faithful, a => mapInstant_eq_self_iff shape faithful.2 a
  | .sequence shape, faithful, items => by
    have same : shape.sequence.mapInstant f items = items ↔
        items.map (shape.mapInstant f) = items.map id := by rw [List.map_id]; rfl
    exact same.trans (List.map_inj_left.trans
      (forall₂_congr fun a _ => mapInstant_eq_self_iff shape faithful a))
  | .record _ fields build parts, faithful, a => by
    have inner := fieldsMapInstant_eq_self_iff fields faithful.2.1 (parts a)
    constructor
    · intro same
      refine inner.mp ?_
      rw [← faithful.2.2.2 (fieldsMapInstant f fields (parts a))]
      exact congrArg parts same
    · intro all
      refine Eq.trans ?_ (faithful.2.2.1 a)
      exact congrArg build (inner.mpr all)
  | .word, _, _ | .halfWord, _, _ | .natural _ _, _, _ | .real, _, _ | .text, _, _ | .flag, _, _
  | .choice _, _, _ | .tree, _, _ => iff_of_true rfl trivial

theorem fieldsMapInstant_eq_self_iff {σ τ : Type} : (fields : Fields σ τ) → FieldsFaithful fields →
    (values : σ) → (fieldsMapInstant f fields values = values ↔
      FieldsAll (fun _ => True) (fun t => f t = t) fields values)
  | .none, _, _ => iff_of_true rfl trivial
  | .cons _ _ shape more, faithful, (a, values) =>
    Prod.ext_iff.trans (and_congr (mapInstant_eq_self_iff shape faithful.2.1 a)
      (fieldsMapInstant_eq_self_iff more faithful.2.2 values))

end

variable {α : Type} {shape : Shape α} {a : α}

/-- A value is decoded from its own text, if its reals are from theirs, with the instants that their
texts are read as. -/
theorem decode_encode (faithful : shape.Faithful) (shallow : shape.levels ≤ depthLimit)
    (all : shape.All Binary64.Restored (fun t => Time.parseLenient t.toText = .ok (f t)) a) :
    shape.decode (Utf8.encode (shape.encode a)) = .ok (shape.mapInstant f a) := by
  have printed := read_print (printable_write shape faithful a shallow)
  have kept : mapReal reread (shape.write a) = shape.write a := by
    refine mapReal_write shape faithful a (All.imp ?_ (fun _ parsed => parsed) shape a all)
    intro x restored
    rw [reread, restored.2]
  have read : shape.ofJson? (shape.write a) = some (shape.mapInstant f a) :=
    ofJson?_write shape faithful a (All.imp (fun _ restored => restored.1) (fun _ parsed => parsed) shape a all)
  rw [kept] at printed
  have decoded := decode_toOption shape printed
  rw [read] at decoded
  exact toOption_eq_some.mp decoded

end Shape

end NotificationRelay
