import NotificationRelay.Store

/-! How often each key may publish within a minute. Times are in nanoseconds. -/
namespace NotificationRelay.Server

structure Budget where
  used : Nat
  start : Int
deriving DecidableEq, Repr

namespace Budget

def span : Nat := 60 * 1000000000

def fresh (now : Nat) : Budget := ⟨0, now⟩

def renew (now : Nat) (b : Budget) : Budget :=
  if (span : Int) < now - b.start then fresh now else b

/-- Uses the budget once, unless all of it is used. -/
def spend (limit now : Nat) (b : Budget) : Budget × Bool :=
  let b := b.renew now
  if limit ≤ b.used then (b, false) else ({ b with used := b.used + 1 }, true)

theorem used_spend_le (limit now : Nat) (b : Budget) (within : b.used ≤ limit) :
    (b.spend limit now).1.used ≤ limit := by
  have renewed : (b.renew now).used ≤ limit := by
    unfold renew
    split
    · exact Nat.zero_le _
    · exact within
  simp only [spend]
  split
  · exact renewed
  · simp only
    omega

end Budget

abbrev Budgets := Store String Budget

namespace Budgets

def spend (bs : Budgets) (limit now : Nat) (key : String) : Budgets × Bool :=
  let (budget, granted) := ((bs.get? key).getD (.fresh now)).spend limit now
  (bs.insert key budget, granted)

def age (bs : Budgets) (nanos : Nat) (key : String) : Budgets :=
  bs.alter key fun b? => b?.map fun b => { b with start := b.start - nanos }

end Budgets

end NotificationRelay.Server
