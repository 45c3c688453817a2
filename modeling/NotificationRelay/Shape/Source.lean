import NotificationRelay.Shape.Basic

/-! Reading of values in a shape from trees of other formats. A format says how its values are
taken apart; what a record holds is then the same for all of them. -/
namespace NotificationRelay

/-- How values of a format are taken apart. Each operation fails on a value that is not of the
kind. -/
structure Source (σ : Type) where
  text : σ → Option String
  natural : Nat → σ → Option Nat
  flag : σ → Option Bool
  content : σ → Option (Option σ)
  items : σ → Option (List σ)
  record : σ → Option (List (String × σ) ⊕ List σ)

namespace Shape

mutual

/-- The value that `x` holds. Real numbers and trees are not taken from other formats. -/
def take {α σ : Type} (source : Source σ) : Shape α → σ → Option α
  | .word, x => (source.natural (greatest 64) x).map UInt64.ofNat
  | .halfWord, x => (source.natural (greatest 32) x).map UInt32.ofNat
  | .natural _ greatest, x => source.natural greatest x
  | .real, _ => none
  | .text, x => source.text x
  | .flag, x => source.flag x
  | .instant, x => (source.text x).bind fun s => (Time.parseLenient s).toOption
  | .choice _, x => (source.text x).bind Vocabulary.find?
  | .tree, _ => none
  | .optional shape, x => do
    match ← source.content x with
    | none => return none
    | some x => return some (← shape.take source x)
  | .nullable shape, x => do
    match ← source.content x with
    | none => return none
    | some x => return some (← shape.take source x)
  | .nullAs given shape, x => do
    match ← source.content x with
    | none => return given
    | some x => shape.take source x
  | .sequence shape, x => do (← source.items x).mapM (shape.take source)
  | .record _ fields build _, x => do
    match ← source.record x with
    | .inl members =>
      let slots ← members.foldlM (fun slots member => takeMember source fields slots member)
        fields.unread
      return build (← (fields.finish slots).toOption)
    | .inr items => return build (← takeItems source fields items)

/-- Takes the value of a key into its slot, unless it has come before. A key that no field has
counts for nothing. -/
def takeMember {σ υ τ : Type} (source : Source σ) :
    Fields υ τ → τ → String × σ → Option τ
  | .none, (), _ => some ()
  | .cons name _ shape more, (slot, slots), (key, x) =>
    if key = name then
      if slot.isSome then none else (shape.take source x).map fun value => (some value, slots)
    else (takeMember source more slots (key, x)).map fun slots => (slot, slots)

/-- Takes the fields in order. Items behind the last one count for nothing. -/
def takeItems {σ υ τ : Type} (source : Source σ) : Fields υ τ → List σ → Option υ
  | .none, _ => some ()
  | .cons key fallback shape more, [] =>
    ((Fields.cons key fallback shape more).fillFrom 0).toOption
  | .cons _ _ shape more, x :: items => do
    let value ← shape.take source x
    return (value, ← takeItems source more items)

end

end Shape

end NotificationRelay
