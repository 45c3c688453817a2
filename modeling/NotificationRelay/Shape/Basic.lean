import NotificationRelay.Json.Value

/-! Shapes: descriptions of typed values that readers and writers of several formats share. -/
namespace NotificationRelay

class Vocabulary (α : Type) where
  all : List α
  word : α → String

namespace Vocabulary

variable {α : Type} [Vocabulary α]

def words (α : Type) [Vocabulary α] : List String := (all : List α).map word

def find? (s : String) : Option α := all.find? fun a => word a = s

end Vocabulary

mutual

inductive Shape : Type → Type 1 where
  | word : Shape UInt64
  | halfWord : Shape UInt32
  | natural (name : String) (greatest : Nat) : Shape Nat
  | real : Shape Binary64
  | text : Shape String
  | flag : Shape Bool
  | instant : Shape Time.Instant
  | choice {α : Type} (vocabulary : Vocabulary α) : Shape α
  | tree : Shape Json
  /-- Null or a value; what is absent is left out of records. -/
  | optional {α : Type} (shape : Shape α) : Shape (Option α)
  /-- Null or a value; what is absent is written as null. -/
  | nullable {α : Type} (shape : Shape α) : Shape (Option α)
  /-- Null stands for the given value. -/
  | nullAs {α : Type} (given : α) (shape : Shape α) : Shape α
  | sequence {α : Type} (shape : Shape α) : Shape (List α)
  | record {α σ τ : Type} (name : String) (fields : Fields σ τ) (build : σ → α) (parts : α → σ) :
      Shape α

/-- Fields in order: `σ` holds one value for each, `τ` what has been read of each so far. A field
with a fallback may be missing. -/
inductive Fields : Type → Type → Type 1 where
  | none : Fields Unit Unit
  | cons {α σ τ : Type} (key : String) (fallback : Option α) (shape : Shape α)
      (more : Fields σ τ) : Fields (α × σ) (Option α × τ)

end

namespace Fields

def required {α σ τ : Type} (key : String) (shape : Shape α) (more : Fields σ τ) :
    Fields (α × σ) (Option α × τ) :=
  .cons key .none shape more

def optional {α σ τ : Type} (key : String) (shape : Shape α) (more : Fields σ τ) :
    Fields (Option α × σ) (Option (Option α) × τ) :=
  .cons key (some .none) (.optional shape) more

/-- A field that may be missing or null, and is always written. -/
def nullable {α σ τ : Type} (key : String) (shape : Shape α) (more : Fields σ τ) :
    Fields (Option α × σ) (Option (Option α) × τ) :=
  .cons key (some .none) (.nullable shape) more

/-- A field that stands for `given` if it is missing or null. -/
def lenient {α σ τ : Type} (key : String) (given : α) (shape : Shape α) (more : Fields σ τ) :
    Fields (α × σ) (Option α × τ) :=
  .cons key (some given) (.nullAs given shape) more

/-- A field that stands for `given` if it is missing, but must not be null. -/
def defaulted {α σ τ : Type} (key : String) (given : α) (shape : Shape α) (more : Fields σ τ) :
    Fields (α × σ) (Option α × τ) :=
  .cons key (some given) shape more

def length {σ τ : Type} : Fields σ τ → Nat
  | .none => 0
  | .cons _ _ _ more => more.length + 1

def unread {σ τ : Type} : Fields σ τ → τ
  | .none => ()
  | .cons _ _ _ more => (.none, more.unread)

def finish {σ τ : Type} : Fields σ τ → τ → Except String σ
  | .none, () => .ok ()
  | .cons key fallback _ more, (slot, slots) =>
    match slot <|> fallback with
    | .none => .error key
    | some value => (more.finish slots).map fun values => (value, values)

/-- The fallbacks of all fields, or the place of the first one that has none. -/
def fillFrom {σ τ : Type} : Fields σ τ → (index : Nat) → Except Nat σ
  | .none, _ => .ok ()
  | .cons _ fallback _ more, index =>
    match fallback with
    | .none => .error index
    | some value => (more.fillFrom (index + 1)).map fun values => (value, values)

end Fields

end NotificationRelay
