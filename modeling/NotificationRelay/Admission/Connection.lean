import NotificationRelay.Admission.Limits
import NotificationRelay.Log

/-! Connections, what they count against, and why one is refused. -/
namespace NotificationRelay

structure Connection where
  user : String
  project : Option String
  job : Option String
deriving DecidableEq, Repr

inductive Quota where
  | user (user : String)
  | project (user project : String)
  | job (user job : String)
deriving DecidableEq, Repr

namespace Connection

/-- An empty identifier is none. -/
def named? (id : Option String) : Option String := id.filter fun s => !s.isEmpty

/-- The quotas of a connection, in the order of their check. -/
def quotas (c : Connection) : List Quota :=
  .user c.user :: ((named? c.project).map (Quota.project c.user)).toList ++
    ((named? c.job).map (Quota.job c.user)).toList

def fields (c : Connection) : List (String × Log.Value) :=
  ("user_id", .text c.user) ::
    (Log.optionalText "project_id" (named? c.project) ++ Log.optionalText "job_id" (named? c.job))

end Connection

inductive Limit where
  | rate
  | perUser
  | perUserAndProject
  | perUserAndJob
deriving DecidableEq, Repr

instance : Vocabulary Limit where
  all := [.rate, .perUser, .perUserAndProject, .perUserAndJob]
  word
    | .rate => "connection_rate_limit"
    | .perUser => "max_connections_per_user"
    | .perUserAndProject => "max_connections_per_user_per_project"
    | .perUserAndJob => "max_connections_per_user_per_job"

def Quota.limit : Quota → Limit
  | .user _ => .perUser
  | .project .. => .perUserAndProject
  | .job .. => .perUserAndJob

def Limits.greatest (l : Limits) : Limit → Nat
  | .rate => l.rate.toNat
  | .perUser => l.perUser.toNat
  | .perUserAndProject => l.perUserAndProject.toNat
  | .perUserAndJob => l.perUserAndJob.toNat

structure Refusal where
  user : String
  limit : Limit
  current : Nat
  greatest : Nat
deriving DecidableEq, Repr

namespace Refusal

def message (r : Refusal) : String :=
  "rate limit exceeded for user " ++ r.user ++ ": " ++ Vocabulary.word r.limit ++ " (" ++
    toString r.current ++ "/" ++ toString r.greatest ++ ")"

def line (r : Refusal) : Log.Line :=
  ⟨.warn, "connection_rejected",
    [("user_id", .text r.user), ("limit", .text (Vocabulary.word r.limit)),
      ("current", .natural r.current), ("max", .natural r.greatest)]⟩

end Refusal

end NotificationRelay
