import NotificationRelay.Shape.Basic

/-! The two sides of the relay: publishers may leave most fields out or null, clients always get
them. -/
namespace NotificationRelay

inductive Side where
  | received
  | sent
deriving DecidableEq, Repr

def Side.pick {α : Type} (received sent : α) : Side → α
  | .received => received
  | .sent => sent

def Fields.expected {α σ τ : Type} (side : Side) (key : String) (given : α) (shape : Shape α)
    (more : Fields σ τ) : Fields (α × σ) (Option α × τ) :=
  match side with
  | .received => .lenient key given shape more
  | .sent => .required key shape more

end NotificationRelay
