import NotificationRelay.Message.Content
import NotificationRelay.Message.Phase

/-! Messages as clients get them. -/
namespace NotificationRelay

structure Progress where
  current : UInt64
  total : UInt64
  percentage : Binary64
  eta : Binary64
  errors : List String
deriving DecidableEq, Repr

def Progress.shape : Shape Progress :=
  .record "Progress"
    (.required "current" .word <|
      .required "total" .word <|
      .required "percentage" .real <|
      .required "eta" .real <|
      .required "errors" (.sequence .text) .none)
    (fun (current, total, percentage, eta, errors, ()) => ⟨current, total, percentage, eta, errors⟩)
    (fun p => (p.current, p.total, p.percentage, p.eta, p.errors, ()))

structure ProjectMessage where
  status : Option ProjectStatus
  progress : Option Progress
deriving DecidableEq, Repr

def ProjectMessage.shape : Shape ProjectMessage :=
  .record "ProjectNotificationMessage"
    (.optional "status" (.choice inferInstance) <|
      .optional "progress" Progress.shape .none)
    (fun (status, progress, ()) => ⟨status, progress⟩)
    (fun m => (m.status, m.progress, ()))

structure Batch where
  keyword : String
  contents : List Content
  crawledAt : Time.Instant
deriving DecidableEq, Repr

def Batch.shape : Shape Batch :=
  .record "BatchData"
    (.required "keyword" .text <|
      .required "content_list" (.sequence (Content.shape .sent)) <|
      .required "crawled_at" .instant .none)
    (fun (keyword, contents, crawledAt, ()) => ⟨keyword, contents, crawledAt⟩)
    (fun b => (b.keyword, b.contents, b.crawledAt, ()))

structure JobMessage where
  platform : Platform
  status : Option JobStatus
  progress : Option Progress
  batch : Option Batch
deriving DecidableEq, Repr

def JobMessage.shape : Shape JobMessage :=
  .record "JobNotificationMessage"
    (.required "platform" (.choice inferInstance) <|
      .optional "status" (.choice inferInstance) <|
      .optional "progress" Progress.shape <|
      .optional "batch" Batch.shape .none)
    (fun (platform, status, progress, batch, ()) => ⟨platform, status, progress, batch⟩)
    (fun m => (m.platform, m.status, m.progress, m.batch, ()))

inductive Notification where
  | project (message : ProjectMessage)
  | projectPhase (message : PhaseMessage)
  | job (message : JobMessage)
deriving DecidableEq, Repr

namespace Notification

def kind : Notification → MessageKind
  | .project _ => .project
  | .projectPhase _ => .projectPhase
  | .job _ => .job

def toJson : Notification → String
  | .project m => ProjectMessage.shape.encode m
  | .projectPhase m => (PhaseMessage.shape .sent).encode m
  | .job m => JobMessage.shape.encode m

end Notification

end NotificationRelay
