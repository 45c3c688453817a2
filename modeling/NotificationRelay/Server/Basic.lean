import NotificationRelay.Hub
import NotificationRelay.Relay
import NotificationRelay.Server.Budget
import NotificationRelay.Server.Fault
import NotificationRelay.Settings.Server
import NotificationRelay.Topic

/-! A server: a relay for publishers, and a hub for the sockets of those who listen. -/
namespace NotificationRelay

structure Server.Socket where
  topic : Topic
  /-- Texts that went out and the client has not read yet, oldest first. -/
  sent : List String
deriving DecidableEq, Repr

structure Server where
  settings : ServerSettings
  observed : Bool
  budgets : Server.Budgets
  relay : Relay
  hub : Hub
  sockets : Store Nat Server.Socket

namespace Server

def make (settings : ServerSettings) (observed : Bool) : Except Fault Server :=
  match settings.check with
  | .error reason => .error (.internal reason)
  | .ok () => .ok ⟨settings, observed, .empty, .make settings.relay, .empty, .empty⟩

def isKey (s : Server) (key : String) : Bool := s.settings.keys.contains key

def spend (s : Server) (now : Nat) (key : String) : Server × Bool :=
  let (budgets, granted) := s.budgets.spend s.settings.requestsPerMinute.toNat now key
  ({ s with budgets }, granted)

end Server

end NotificationRelay
