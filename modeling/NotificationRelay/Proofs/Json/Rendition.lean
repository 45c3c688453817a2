import NotificationRelay.Proofs.Json.Canonical
import NotificationRelay.Proofs.Json.Printed

/-! Two texts of one tree: any that it is read from, and the one that its canonical form is printed
as. What could be read can be printed, so that the second is read, too. -/
namespace NotificationRelay.Json

open Scan

theorem Number.Spelled.printable {depth : Nat} {n : Number} (spelled : n.Spelled) :
    Printable depth (.number n) := by
  cases n with
  | natural n => exact .natural spelled
  | negative n => exact .negative spelled.1 spelled.2
  | real x => exact .real spelled

/-- No value that is read is too deep to be printed and read again. -/
theorem Scan.printable_value {depth : Nat} {bytes rest : Bytes} {j : Json}
    (ok : Yields (value depth bytes) j rest) : Printable depth j :=
  value_hold (P := Printable) (fun _ => .null) (fun _ => .flag) (fun _ => .text)
    (fun _ _ => Number.Spelled.printable) (fun _ _ => .list) (fun _ _ => .object) ok

theorem printable_read {source : Bytes} {j : Json} (ok : read source = .ok j) :
    Printable depthLimit j := by
  unfold read at ok
  split at ok
  · cases ok
  · rename_i step found
    split at ok
    · cases ok
    · cases ok
      exact Scan.printable_value ⟨step, found, rfl, rfl⟩

theorem Printable.canonical {depth : Nat} {j : Json} (printable : Printable depth j)
    (distinct : j.Distinct) : Printable depth j.canonical := by
  induction printable with
  | null => exact .null
  | flag b => exact .flag b
  | natural fits => exact .natural fits
  | negative some fits => exact .negative some fits
  | real finite => exact .real finite
  | text s => exact .text s
  | list inside ih =>
    rw [Json.canonical, canonicalItems_eq]
    refine .list fun j among => ?_
    obtain ⟨old, there, rfl⟩ := List.mem_map.mp among
    exact ih old there (distinct.items old there)
  | object inside ih =>
    obtain ⟨once, distinct⟩ := distinct.members
    rw [Json.canonical]
    refine .object fun m among => ?_
    obtain ⟨old, there, rfl⟩ := mem_canonical once among
    exact ih old there (distinct old there)

/-- The text is one of the tree, and has no key twice in an object. -/
def Spells (text : String) (j : Json) : Prop :=
  ∃ w, read (Utf8.encode text) = .ok w ∧ w.Distinct ∧ w.canonical = j.canonical

/-- The digits of the tree's reals are read as these very reals. -/
def Renders (j : Json) : Prop := mapReal reread j.canonical = j.canonical

theorem read_printCanonical {source : Bytes} {w j : Json} (read : read source = .ok w)
    (distinct : w.Distinct) (same : w.canonical = j.canonical) (renders : j.Renders) :
    Json.read (Utf8.encode j.printCanonical) = .ok w.canonical := by
  have printable : Printable depthLimit j.canonical :=
    same ▸ (printable_read read).canonical distinct
  rw [printCanonical, read_print printable, renders, same]

end NotificationRelay.Json
