import NotificationRelay.Shape.Basic

/-! The limits on open connections and on the rate of new ones. -/
namespace NotificationRelay

structure Limits where
  perUser : UInt32
  perUserAndProject : UInt32
  perUserAndJob : UInt32
  rate : UInt32
  windowSeconds : UInt64
  sweepSeconds : UInt64
deriving DecidableEq, Repr

namespace Limits

def default : Limits := ⟨10, 3, 3, 20, 60, 60⟩

def shape : Shape Limits :=
  .record "AdmissionConfig"
    (.defaulted "max_connections_per_user" default.perUser .halfWord <|
      .defaulted "max_connections_per_user_per_project" default.perUserAndProject .halfWord <|
      .defaulted "max_connections_per_user_per_job" default.perUserAndJob .halfWord <|
      .defaulted "connection_rate_limit" default.rate .halfWord <|
      .defaulted "rate_limit_window_secs" default.windowSeconds .word <|
      .defaulted "sweep_interval_secs" default.sweepSeconds .word .none)
    (fun (user, project, job, rate, window, sweep, ()) => ⟨user, project, job, rate, window, sweep⟩)
    (fun l => (l.perUser, l.perUserAndProject, l.perUserAndJob, l.rate, l.windowSeconds,
      l.sweepSeconds, ()))

def named (l : Limits) : List (String × Nat) :=
  [("max_connections_per_user", l.perUser.toNat),
    ("max_connections_per_user_per_project", l.perUserAndProject.toNat),
    ("max_connections_per_user_per_job", l.perUserAndJob.toNat),
    ("connection_rate_limit", l.rate.toNat),
    ("rate_limit_window_secs", l.windowSeconds.toNat),
    ("sweep_interval_secs", l.sweepSeconds.toNat)]

/-- No limit may be zero; the first one that is gets named. -/
def check (l : Limits) : Except String Unit :=
  match l.named.find? fun limit => limit.2 = 0 with
  | some (name, _) => .error (name ++ " must be > 0")
  | none => .ok ()

def invalid (reason : String) : String := "invalid admission configuration: " ++ reason

def nanosPerSecond : Nat := 1000000000

def window (l : Limits) : Nat := l.windowSeconds.toNat * nanosPerSecond

def sweepInterval (l : Limits) : Nat := l.sweepSeconds.toNat * nanosPerSecond

end Limits

end NotificationRelay
