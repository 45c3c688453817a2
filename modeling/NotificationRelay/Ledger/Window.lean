import NotificationRelay.Binary64.Basic

/-! The latest samples of a measured time, in nanoseconds and in the order of their arrival, with
their mean. -/
namespace NotificationRelay

structure Window where
  samples : List Nat
  /-- The mean of the samples, rounded down, and zero for no samples. -/
  average : Nat
deriving DecidableEq, Repr

namespace Window

def empty : Window := ⟨[], 0⟩

def makeRoom (capacity : Nat) : List Nat → List Nat
  | [] => []
  | oldest :: rest => if capacity ≤ rest.length + 1 then makeRoom capacity rest else oldest :: rest

def push (capacity sample : Nat) (w : Window) : Window :=
  let samples := makeRoom capacity w.samples ++ [sample]
  ⟨samples, total samples / samples.length⟩

def place (length : Nat) (p : Binary64) : Nat :=
  let p := p.clamp .zero (.ofNat 100)
  min (((Binary64.ofNat length).mul p).div (.ofNat 100)).natPart (length - 1)

/-- The sample at the place of a percentile. The samples are not sorted, so that this is an
estimate. -/
def percentile (w : Window) (p : Binary64) : Option Nat := w.samples[place w.samples.length p]?

end Window

end NotificationRelay
