import NotificationRelay.Admission.Connection
import NotificationRelay.Failure.Basic

/-! Errors of any kind, with what lies behind them. -/
namespace NotificationRelay

inductive Trouble where
  | violation (violation : Violation)
  | failure (failure : Failure)
  | refusal (refusal : Refusal)
  | plain (text : String)
  | around (text : String) (inner : Trouble)
deriving DecidableEq, Repr

namespace Trouble

def message : Trouble → String
  | .violation v => v.message
  | .failure f => f.message
  | .refusal r => r.message
  | .plain text => text
  | .around text _ => text

/-- The texts of what lies behind, outermost first. -/
def causes : Trouble → List String
  | .violation v => v.causes
  | .failure f => f.causes
  | .refusal _ | .plain _ => []
  | .around _ inner => inner.message :: inner.causes

def isRefusal : Trouble → Bool
  | .refusal _ => true
  | .around _ inner => inner.isRefusal
  | _ => false

/-- Only the outermost words decide. -/
def category (t : Trouble) : Category := .ofMessage t.message

end Trouble

end NotificationRelay
