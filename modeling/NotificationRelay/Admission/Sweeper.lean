import NotificationRelay.Admission.Register

/-! The sweeper, which clears a register at regular times. -/
namespace NotificationRelay

structure Sweeper where
  /-- In nanoseconds, and never less than a second. -/
  interval : Nat
  last : Nat
  running : Bool
deriving DecidableEq, Repr

namespace Sweeper

def leastInterval : Nat := Limits.nanosPerSecond

def start (interval now : Nat) : Sweeper × List Log.Line :=
  (⟨max interval leastInterval, now, true⟩,
    if interval < leastInterval then
      [⟨.warn, "sweep_interval_raised_to_minimum",
        [("requested_ms", .natural (interval / 1000000))]⟩]
    else [])

/-- Sweeps the register if a sweep has become due by `now`. `clock` is the time that the register
goes by. -/
def run (s : Sweeper) (now clock : Nat) (r : Register) : Sweeper × Register × List Log.Line :=
  let due := (now - s.last) / s.interval
  if s.running && 0 < due then
    let (r, removed) := r.sweep clock
    ({ s with last := s.last + due * s.interval }, r,
      if 0 < removed then [⟨.debug, "rate_window_swept", [("removed", .natural removed)]⟩] else [])
  else (s, r, [])

def stop (s : Sweeper) : Sweeper × List Log.Line :=
  ({ s with running := false }, if s.running then [⟨.info, "sweeper_stopped", []⟩] else [])

end Sweeper

end NotificationRelay
