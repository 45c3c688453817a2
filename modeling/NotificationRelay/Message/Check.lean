import NotificationRelay.Message.Notification
import NotificationRelay.Message.Violation

/-! The checks that a message has to pass before clients get it. -/
namespace NotificationRelay

open Json

def hundred : Binary64 := .ofNat 100

def isPercent (x : Binary64) : Bool := x.isFinite && Binary64.zero.le x && x.le hundred

def checkPercent (path : Path) (x : Binary64) : Except Violation Unit :=
  if isPercent x then .ok ()
  else .error (.value path (x.plainText ++ " is outside [0, 100]"))

def Progress.check (p : Progress) : Except Violation Unit := do
  checkPercent [.key "progress", .key "percentage"] p.percentage
  if p.eta.isFinite && !p.eta.lt .zero then return ()
  else throw (.value [.key "progress", .key "eta"] (p.eta.plainText ++ " is negative"))

def PhaseProgress.check (p : PhaseProgress) : Except Violation Unit :=
  checkPercent [.key "progress_percent"] p.percent

def checkEach {α : Type} (check : α → Except Violation Unit) : Option α → Except Violation Unit
  | some a => check a
  | none => .ok ()

def ProjectMessage.check (m : ProjectMessage) : Except Violation Unit :=
  checkEach Progress.check m.progress

def PhaseMessage.check (m : PhaseMessage) : Except Violation Unit := do
  if m.payload.projectId.isEmpty then throw (.missingField [.key "payload", .key "project_id"])
  checkPercent [.key "payload", .key "overall_progress_percent"] m.payload.overallPercent
  checkEach PhaseProgress.check m.payload.crawl
  checkEach PhaseProgress.check m.payload.analyze

def Content.check (c : Content) : Except Violation Unit :=
  if c.id.isEmpty then .error (.missingField [.key "content", .key "id"])
  else if c.reach.rate.isFinite then .ok ()
  else .error (.value [.key "content", .key "metrics", .key "rate"] "must be a finite number")

def Content.checkAll (seen : List String) : List Content → Except Violation Unit
  | [] => .ok ()
  | c :: rest => do
    c.check
    if c.id ∈ seen then
      throw (.value [.key "batch", .key "content_list"] ("duplicate content id " ++ c.id))
    checkAll (c.id :: seen) rest

def Batch.check (b : Batch) : Except Violation Unit := Content.checkAll [] b.contents

def JobMessage.check (m : JobMessage) : Except Violation Unit := do
  checkEach Progress.check m.progress
  checkEach Batch.check m.batch

def Notification.check : Notification → Except Violation Unit
  | .project m => m.check
  | .projectPhase m => m.check
  | .job m => m.check

end NotificationRelay
