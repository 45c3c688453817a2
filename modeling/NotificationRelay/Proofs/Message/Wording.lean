import NotificationRelay.Proofs.Json.Syntax
import NotificationRelay.Proofs.Message.Exact

/-! How long the wording of a refusal is. Besides what it shows of a payload, a refusal has words of
its own, a place of the schema and numbers no greater than the payload is long. -/
namespace NotificationRelay

open Json

namespace Json

theorem at?_cons {part : PathPart} {path : Path} {root j : Json}
    (found : root.at? (part :: path) = some j) :
    (∃ key members inner, part = .key key ∧ root = .object members ∧
        lookup key members = some inner ∧ inner.at? path = some j) ∨
      ∃ i items inner, part = .index i ∧ root = .list items ∧ items[i]? = some inner ∧
        inner.at? path = some j := by
  cases part with
  | key name =>
    cases root with
    | object members =>
      obtain ⟨inner, here, below⟩ := Option.bind_eq_some_iff.mp found
      exact .inl ⟨name, members, inner, rfl, rfl, here, below⟩
    | _ => cases found
  | index i =>
    cases root with
    | list items =>
      obtain ⟨inner, here, below⟩ := Option.bind_eq_some_iff.mp found
      exact .inr ⟨i, items, inner, rfl, rfl, here, below⟩
    | _ => cases found
  | unnamed => cases root <;> cases found

/-- An index on the way to a value is one of a list on that way. -/
theorem lt_of_at? {root j : Json} {path : Path} {most : Nat}
    (short : ∀ path items, root.at? path = some (.list items) → items.length ≤ most)
    (found : root.at? path = some j) {i : Nat} (among : .index i ∈ path) : i < most := by
  induction path generalizing root with
  | nil => cases among
  | cons part path ih =>
    obtain ⟨key, members, inner, rfl, rfl, here, below⟩ | ⟨n, items, inner, rfl, rfl, here, below⟩ :=
      at?_cons found
    · refine ih (fun path items deeper => ?_) below (by simpa using among)
      exact short (.key key :: path) items (by rwa [Clause.at?_member here])
    · rcases List.mem_cons.mp among with same | among
      · cases same
        have fits := (List.getElem?_eq_some_iff.mp here).1
        exact Nat.lt_of_lt_of_le fits (short [] items rfl)
      · refine ih (fun path items' deeper => ?_) below among
        exact short (.index n :: path) items' (by rwa [Clause.at?_item here])

/-- The same of a place where a clause is broken, even if nothing is there. -/
theorem lt_of_broken {root : Json} {c : Clause} {path : Path} {most : Nat}
    (short : ∀ path items, root.at? path = some (.list items) → items.length ≤ most)
    (broken : ¬c.HoldsAt root path) {i : Nat} (among : .index i ∈ path) : i < most := by
  cases found : root.at? path with
  | some j => exact lt_of_at? short found among
  | none =>
    by_contra far
    refine broken ⟨fun j here => ?_, fun _ parent name members split above => ?_⟩
    · rw [found] at here
      cases here
    · have around : .index i ∈ parent := by
        rw [split] at among
        simpa using among
      exact absurd (lt_of_at? short above around) far

namespace Scan

variable {item : (bytes : Bytes) → Except Fault (Step Json bytes.length)} {bytes rest : Bytes}

theorem Yields.length_lt {α : Type} {n : Nat} {result : Except Fault (Step α n)} {a : α}
    (yields : Yields result a rest) : rest.length < n := by
  obtain ⟨step, _, _, rfl⟩ := yields
  exact step.shorter

theorem Elements.length_le {index : Nat} {items : List Json}
    (elements : Elements item index bytes items rest) : items.length ≤ bytes.length := by
  induction elements with
  | done => exact Nat.zero_le _
  | @item _ _ _ within _ _ _ _ _ head _ ih =>
    have shorter := head.length_lt
    rw [List.length_cons]
    omega

theorem Elements.reads {index : Nat} {items : List Json}
    (elements : Elements item index bytes items rest) :
    ∀ j ∈ items, ∃ start middle, Yields (item start) j middle ∧ start.length ≤ bytes.length := by
  induction elements with
  | done => simp
  | @item _ _ start within _ middle _ _ _ head _ ih =>
    intro j among
    rcases List.mem_cons.mp among with rfl | among
    · exact ⟨start, middle, head, within⟩
    · obtain ⟨start', middle', read, later⟩ := ih j among
      have shorter := head.length_lt
      exact ⟨start', middle', read, by omega⟩

theorem Entries.reads {first : Bool} {members : List (String × Json)}
    (entries : Entries item first bytes members rest) :
    ∀ m ∈ members, ∃ start middle, Yields (item start) m.2 middle ∧ start.length ≤ bytes.length := by
  induction entries with
  | done => simp
  | entry next name value _ ih =>
    rename_i start within _ behind _ middle _ _ _
    have key := name.length_lt
    intro m among
    rcases List.mem_cons.mp among with rfl | among
    · obtain ⟨inside, colon, read⟩ := memberValue_spelled value
      have mark := colon.length_lt
      exact ⟨inside, middle, read, by omega⟩
    · obtain ⟨start', middle', read, later⟩ := ih m among
      have shorter := value.length_lt
      exact ⟨start', middle', read, by omega⟩

/-- A list has no more items than its text has bytes, however deep it is. -/
theorem length_items_le {depth : Nat} {j : Json} (read : Yields (value depth bytes) j rest)
    {path : Path} {items : List Json} (found : j.at? path = some (.list items)) :
    items.length ≤ bytes.length := by
  induction depth generalizing bytes j rest path with
  | zero =>
    obtain ⟨b, tail, _, spelled⟩ := spelled_of_value read
    cases path with
    | nil =>
      cases found
      cases spelled
    | cons part path =>
      obtain ⟨_, _, _, _, rfl, _⟩ | ⟨_, _, _, _, rfl, _⟩ := at?_cons found <;> cases spelled
  | succ depth ih =>
    obtain ⟨b, tail, behind, spelled⟩ := spelled_of_value read
    have shorter := length_lt_of_skipBlank behind
    cases path with
    | nil =>
      cases found
      cases spelled with
      | list _ elements => exact Nat.le_trans elements.length_le (Nat.le_of_lt shorter)
    | cons part path =>
      obtain ⟨_, _, _, _, rfl, here, below⟩ | ⟨_, _, _, _, rfl, here, below⟩ := at?_cons found
      · cases spelled with
        | object _ entries =>
          obtain ⟨start, _, inner, within⟩ := entries.reads _ (mem_of_lookup here)
          have short := ih inner below
          omega
      · cases spelled with
        | list _ elements =>
          obtain ⟨start, _, inner, within⟩ := elements.reads _ (List.mem_of_getElem? here)
          have short := ih inner below
          omega

end Scan

theorem length_items_le_of_read {payload : Bytes} {root : Json} (read : Json.read payload = .ok root)
    {path : Path} {items : List Json} (found : root.at? path = some (.list items)) :
    items.length ≤ payload.length := by
  unfold Json.read at read
  split at read
  · cases read
  · rename_i step ok
    split at read
    · cases read
    · cases read
      exact Scan.length_items_le ⟨step, ok, rfl, rfl⟩ found

end Json

def mostDigits : Nat := 20

theorem length_toString_le {n : Nat} (small : n ≤ twoTo 64) : (toString n).length ≤ mostDigits := by
  have fits : n < 10 ^ mostDigits := Nat.lt_of_le_of_lt small (by decide)
  have digits := (Nat.length_toDigits_le_iff (b := 10) (n := n) (by decide) (by decide)).mpr fits
  have wording : (toString n).length = (Nat.toDigits 10 n).length := String.length_ofList
  exact wording ▸ digits

def Descent.extent : Descent → Nat
  | .member key => key.length + 1
  | .item => mostDigits + 2

def Place.extent (place : Place) : Nat := total (place.map Descent.extent)

namespace Json

def PathPart.shown : PathPart → Nat → String
  | .key name, 0 => name
  | .key name, _ + 1 => "." ++ name
  | .index n, _ => "[" ++ toString n ++ "]"
  | .unnamed, 0 => "?"
  | .unnamed, _ + 1 => ".?"

theorem pathText_eq (path : Path) :
    pathText path = (path.zipIdx.map fun part => part.1.shown part.2).foldl (· ++ ·) "" := by
  rw [pathText]
  congr
  funext part
  obtain ⟨part, n⟩ := part
  cases part <;> cases n <;> rfl

theorem length_shown_le {place : Place} {path : Path} (covers : place.Covers path)
    (small : ∀ i, .index i ∈ path → i ≤ twoTo 64) (before : Nat) (text : String) :
    (((path.zipIdx before).map fun part => part.1.shown part.2).foldl (· ++ ·) text).length ≤
      text.length + place.extent := by
  induction covers generalizing before text with
  | root => exact Nat.le_refl _
  | @member place path key inner ih =>
    have here : (PathPart.shown (.key key) before).length ≤ key.length + 1 := by
      have point : ".".length = 1 := by decide
      cases before with
      | zero => exact Nat.le_succ _
      | succ before =>
        rw [PathPart.shown, String.length_append]
        omega
    have later := ih (fun i among => small i (List.mem_cons_of_mem _ among)) (before + 1)
      (text ++ PathPart.shown (.key key) before)
    rw [String.length_append] at later
    rw [List.zipIdx_cons, List.map_cons, List.foldl_cons]
    simp only [Place.extent, List.map_cons, total, Descent.extent] at later ⊢
    omega
  | @item place path i inner ih =>
    have digits := length_toString_le (small i List.mem_cons_self)
    have here : (PathPart.shown (.index i) before).length ≤ mostDigits + 2 := by
      simp only [PathPart.shown, String.length_append]
      have brackets : "[".length = 1 ∧ "]".length = 1 := by decide
      omega
    have later := ih (fun i among => small i (List.mem_cons_of_mem _ among)) (before + 1)
      (text ++ PathPart.shown (.index i) before)
    rw [String.length_append] at later
    rw [List.zipIdx_cons, List.map_cons, List.foldl_cons]
    simp only [Place.extent, List.map_cons, total, Descent.extent] at later ⊢
    omega

end Json

theorem Place.Covers.length_toText_le {place : Place} {path : Path} (covers : place.Covers path)
    (small : ∀ i, .index i ∈ path → i ≤ twoTo 64) : path.toText.length ≤ place.extent + 1 := by
  rw [Path.toText]
  split
  · exact Nat.le_add_left 1 _
  · rw [pathText_eq]
    have length := length_shown_le covers small 0 ""
    exact Nat.le_trans length (by simp)

def Frames (own : Nat) (told message : String) : Prop :=
  ∃ before after, message = before ++ told ++ after ∧ before.length + after.length ≤ own

namespace Frames

variable {own : Nat} {told message : String}

theorem plain (told : String) : Frames 0 told told := ⟨"", "", by simp, Nat.le_refl _⟩

theorem silent (short : message.length ≤ own) : Frames own "" message :=
  ⟨message, "", by simp, short⟩

theorem mono {more : Nat} (frames : Frames own told message) (fits : own ≤ more) :
    Frames more told message := by
  obtain ⟨before, after, same, short⟩ := frames
  exact ⟨before, after, same, Nat.le_trans short fits⟩

theorem led (lead : String) (frames : Frames own told message) :
    Frames (lead.length + own) told (lead ++ message) := by
  obtain ⟨before, after, rfl, short⟩ := frames
  refine ⟨lead ++ before, after, by simp [String.append_assoc], ?_⟩
  rw [String.length_append]
  omega

theorem followed (tail : String) (frames : Frames own told message) :
    Frames (own + tail.length) told (message ++ tail) := by
  obtain ⟨before, after, rfl, short⟩ := frames
  refine ⟨before, after ++ tail, by simp [String.append_assoc], ?_⟩
  rw [String.length_append]
  omega

theorem length_le (frames : Frames own told message) : message.length ≤ told.length + own := by
  obtain ⟨before, after, rfl, short⟩ := frames
  simp only [String.length_append]
  omega

theorem le_length (frames : Frames own told message) : told.length ≤ message.length := by
  obtain ⟨before, after, rfl, _⟩ := frames
  simp only [String.length_append]
  omega

end Frames

namespace Json

theorem lineColumn_le (consumed : Bytes) :
    (lineColumn consumed).1 ≤ consumed.length + 1 ∧ (lineColumn consumed).2 ≤ consumed.length := by
  have steps (place : Nat × Nat) :
      (consumed.foldl (fun place b =>
        if b = 10 then (place.1 + 1, 0) else (place.1, place.2 + 1)) place).1 ≤
          consumed.length + place.1 ∧
      (consumed.foldl (fun place b =>
        if b = 10 then (place.1 + 1, 0) else (place.1, place.2 + 1)) place).2 ≤
          consumed.length + place.2 := by
    induction consumed generalizing place with
    | nil => simp
    | cons b rest ih =>
      rw [List.foldl_cons, List.length_cons]
      split
      · have later := ih (place.1 + 1, 0)
        dsimp only at later
        omega
      · have later := ih (place.1, place.2 + 1)
        dsimp only at later
        omega
  exact steps (1, 0)

/-- A fault tells its cause, and where it is. -/
theorem Fault.frames_toText (f : Fault) {source : Bytes} (addressed : source.length < twoTo 64) :
    Frames 57 f.cause.toText (f.toText source) := by
  have taken : (source.take (source.length - f.left)).length ≤ source.length :=
    List.length_take_le' _ _
  obtain ⟨line, column⟩ := lineColumn_le (source.take (source.length - f.left))
  have lineDigits := length_toString_le (Nat.le_trans line (by omega))
  have columnDigits := length_toString_le (Nat.le_trans column (by omega))
  have frames := ((((Frames.plain f.cause.toText).followed " at line ").followed
    (toString (lineColumn (source.take (source.length - f.left))).1)).followed " column ").followed
    (toString (lineColumn (source.take (source.length - f.left))).2)
  refine Frames.mono frames ?_
  have words : " at line ".length = 9 ∧ " column ".length = 8 := by decide
  rw [mostDigits] at lineDigits columnDigits
  omega

end Json

/-- A violation tells its detail, and which place is meant. -/
theorem Says.frames {presence : Presence} {demand : Demand} {found : Option Json} {path : Path}
    {v : Violation} (tells : Says presence demand found path v) {most : Nat}
    (short : path.toText.length ≤ most) : Frames (most + 24) v.detail v.message := by
  have missing : Frames (most + 24) "" ("missing required field: " ++ path.toText) := by
    refine .silent ?_
    have words : "missing required field: ".length = 24 := by decide
    rw [String.length_append]
    omega
  cases tells with
  | missing => exact missing
  | blank => exact missing
  | value _ _ reason =>
    have frames := (Frames.plain reason).led ("invalid value for " ++ path.toText ++ ": ")
    have words : "invalid value for ".length = 18 ∧ ": ".length = 2 := by decide
    simp only [String.length_append] at frames
    exact frames.mono (by omega)
  | status =>
    have words : "invalid status: ".length = 16 := by decide
    exact ((Frames.plain _).led "invalid status: ").mono (by omega)
  | platform =>
    have words : "invalid platform: ".length = 18 := by decide
    exact ((Frames.plain _).led "invalid platform: ").mono (by omega)

/-- What breaks a schema has few words around it. -/
theorem Exposes.frames {table : List Clause} {root : Json} {v : Violation}
    (exposes : Exposes table root [] v) {most : Nat}
    (extents : ∀ c ∈ table, c.place.extent ≤ most)
    (short : ∀ path items, root.at? path = some (.list items) → items.length ≤ twoTo 64) :
    Frames (most + 25) v.detail v.message := by
  obtain ⟨c, among, path, covers, broken, tells⟩ := exposes
  have small (i : Nat) (index : .index i ∈ path) : i ≤ twoTo 64 :=
    Nat.le_of_lt (lt_of_broken short broken index)
  have place := Nat.le_trans (covers.length_toText_le small)
    (Nat.add_le_add_right (extents c among) 1)
  rw [List.nil_append] at tells
  exact tells.frames place

end NotificationRelay
