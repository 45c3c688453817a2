import NotificationRelay.Message.Check
import NotificationRelay.Message.Event
import NotificationRelay.Message.Input
import NotificationRelay.Noted

/-! The normal form of messages: numbers in range, no list missing, each post once. Whatever is
altered is noted. -/
namespace NotificationRelay

open Json

/-- What is no number counts as zero. -/
def percentOf (x : Binary64) : Binary64 := if x.isNaN then .zero else x.clamp .zero hundred

def clampPercent (path : Path) (x : Binary64) : Noted Event Binary64 :=
  let clamped := percentOf x
  if clamped.same x then pure clamped else ⟨[.percentageClamped path x clamped], clamped⟩

def clampEta (x : Binary64) : Noted Event Binary64 :=
  if Binary64.zero.le x then pure x else ⟨[.etaClamped x], .zero⟩

def onSome {α β : Type} (f : α → Noted Event β) : Option α → Noted Event (Option β)
  | some a => do return some (← f a)
  | none => pure none

def Progress.ofInput (p : Input.Progress) : Noted Event Progress := do
  let percentage ← clampPercent [.key "progress", .key "percentage"] p.percentage
  let eta ← clampEta p.eta
  return ⟨p.current, p.total, percentage, eta, p.errors.getD []⟩

def ProjectMessage.ofInput (m : Input.ProjectMessage) : Noted Event ProjectMessage := do
  let progress ← onSome Progress.ofInput m.progress
  return ⟨m.status, progress⟩

def PhaseProgress.normalize (path : Path) (p : PhaseProgress) : Noted Event PhaseProgress := do
  let percent ← clampPercent path p.percent
  return ⟨p.total, p.done, p.errors, percent⟩

def PhaseMessage.normalize (m : PhaseMessage) : Noted Event PhaseMessage := do
  let inPayload (names : List String) : Path := (("payload" :: names).map .key)
  let crawl ← onSome (PhaseProgress.normalize (inPayload ["crawl", "progress_percent"]))
    m.payload.crawl
  let analyze ← onSome (PhaseProgress.normalize (inPayload ["analyze", "progress_percent"]))
    m.payload.analyze
  let overallPercent ← clampPercent (inPayload ["overall_progress_percent"])
    m.payload.overallPercent
  return ⟨m.event, m.payload.projectId, m.payload.status, crawl, analyze, overallPercent⟩

def Author.passOn (a : Author) : Author :=
  ⟨a.id, a.username, a.name, a.followers, a.isVerified, a.avatarUrl⟩

def Reach.passOn (r : Reach) : Reach := ⟨r.views, r.likes, r.comments, r.shares, r.rate⟩

def Media.passOn (m : Media) : Media := ⟨m.kind, m.duration, m.thumbnail, m.url⟩

def Content.passOn (c : Content) : Content :=
  ⟨c.id, c.text, c.author.passOn, c.reach.passOn, c.media.map Media.passOn, c.publishedAt,
    c.permalink⟩

structure Sifted where
  kept : List Content
  dropped : Nat
deriving DecidableEq, Repr

def siftFrom (seen : List String) : List Content → Noted Event Sifted
  | [] => pure ⟨[], 0⟩
  | c :: rest =>
    if c.id ∈ seen then do
      Noted.note (.duplicateSkipped c.id)
      let sifted ← siftFrom seen rest
      return { sifted with dropped := sifted.dropped + 1 }
    else do
      let sifted ← siftFrom (c.id :: seen) rest
      return { sifted with kept := c.passOn :: sifted.kept }

def sift (contents : List Content) : Noted Event Sifted := siftFrom [] contents

def distinct (contents : List Content) : Noted Event (List Content) := do
  return (← sift contents).kept

def Batch.ofInput (b : Input.Batch) : Noted Event Batch := do
  let sifted ← sift (b.contents.getD [])
  if 0 < sifted.dropped then
    Noted.note (.duplicatesDropped b.keyword sifted.dropped sifted.kept.length)
  return ⟨b.keyword, sifted.kept, b.crawledAt⟩

def JobMessage.ofInput (m : Input.JobMessage) : Noted Event JobMessage := do
  let progress ← onSome Progress.ofInput m.progress
  let batch ← onSome Batch.ofInput m.batch
  return ⟨m.platform, m.status, progress, batch⟩

end NotificationRelay
