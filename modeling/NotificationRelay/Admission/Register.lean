import NotificationRelay.Admission.Connection
import NotificationRelay.Store

/-! The register of open connections and of the attempts within the rate window. Times are in
nanoseconds. -/
namespace NotificationRelay

structure Register where
  limits : Limits
  opened : Tally Quota
  /-- The times of a user's latest attempts, oldest first. -/
  attempts : Store String (List Nat)

namespace Register

def make (limits : Limits) : Register := ⟨limits, .empty, .empty⟩

def attemptsOf (r : Register) (user : String) : List Nat := (r.attempts.get? user).getD []

/-- Drops the leading times that have left the window. -/
def prune (window now : Nat) (times : List Nat) : List Nat :=
  times.dropWhile fun time => window < now - time

def refusal? (r : Register) (c : Connection) : Option Refusal :=
  (c.quotas.find? fun q => r.limits.greatest q.limit ≤ r.opened.count q).map fun q =>
    ⟨c.user, q.limit, r.opened.count q, r.limits.greatest q.limit⟩

def enter (r : Register) (c : Connection) : Register :=
  { r with opened := c.quotas.foldl (fun opened q => opened.add q 1) r.opened }

/-- Opens a connection unless a limit is reached. An attempt that passes the rate window counts
there even if it is refused after that. -/
def connect (r : Register) (now : Nat) (c : Connection) : Register × Except Refusal Unit :=
  let recent := prune r.limits.window now (r.attemptsOf c.user)
  let greatest := r.limits.greatest .rate
  if greatest ≤ recent.length then
    ({ r with attempts := r.attempts.insert c.user recent },
      .error ⟨c.user, .rate, recent.length, greatest⟩)
  else
    let r := { r with attempts := r.attempts.insert c.user (recent ++ [now]) }
    match r.refusal? c with
    | some refusal => (r, .error refusal)
    | none => (r.enter c, .ok ())

/-- Closes a connection; each of its quotas gets one back if it has given any. Tells whether the
user had a connection. -/
def release (r : Register) (c : Connection) : Register × Bool :=
  ({ r with opened := c.quotas.foldl Tally.drop r.opened },
    (r.opened.get? (.user c.user)).isSome)

/-- Drops all times that have left the window, and tells how many. -/
def sweep (r : Register) (now : Nat) : Register × Nat :=
  let kept := r.attempts.filterMap fun times =>
    let recent := prune r.limits.window now times
    if recent.isEmpty then none else some recent
  let count (attempts : Store String (List Nat)) := total (attempts.values.map List.length)
  ({ r with attempts := kept }, count r.attempts - count kept)

structure Stats where
  users : Nat
  connections : Nat
  projects : Nat
  jobs : Nat
  windows : Nat
  attempts : Nat
deriving DecidableEq, Repr

def stats (r : Register) : Stats :=
  let of (p : Quota → Bool) := r.opened.entries.filter fun e => p e.1
  let users := of fun
    | .user _ => true
    | _ => false
  { users := users.length
    connections := total (users.map (·.2))
    projects := (of fun
      | .project .. => true
      | _ => false).length
    jobs := (of fun
      | .job .. => true
      | _ => false).length
    windows := r.attempts.size
    attempts := total (r.attempts.values.map List.length) }

def admittedLine (c : Connection) : Log.Line := ⟨.debug, "connection_admitted", c.fields⟩

def connectLine (c : Connection) : Except Refusal Unit → Log.Line
  | .ok () => admittedLine c
  | .error refusal => refusal.line

def releaseLine (c : Connection) (known : Bool) : Log.Line :=
  if known then ⟨.debug, "connection_released", c.fields⟩
  else ⟨.warn, "untrack_without_tracked_connection", [("user_id", .text c.user)]⟩

end Register

end NotificationRelay
