import NotificationRelay.Message.Content
import NotificationRelay.Message.Vocabulary

/-! Messages as publishers send them, where they differ from what clients get: numbers need not be
in range, lists may be missing, and posts may repeat. -/
namespace NotificationRelay.Input

structure Progress where
  current : UInt64
  total : UInt64
  percentage : Binary64
  eta : Binary64
  errors : Option (List String)
deriving DecidableEq, Repr

def Progress.shape : Shape Progress :=
  .record "ProgressInput"
    (.lenient "current" 0 .word <|
      .lenient "total" 0 .word <|
      .lenient "percentage" .zero .real <|
      .lenient "eta" .zero .real <|
      .optional "errors" (.sequence .text) .none)
    (fun (current, total, percentage, eta, errors, ()) => ⟨current, total, percentage, eta, errors⟩)
    (fun p => (p.current, p.total, p.percentage, p.eta, p.errors, ()))

structure ProjectMessage where
  status : Option ProjectStatus
  progress : Option Progress
deriving DecidableEq, Repr

def ProjectMessage.shape : Shape ProjectMessage :=
  .record "ProjectInputMessage"
    (.optional "status" (.choice inferInstance) <|
      .optional "progress" Progress.shape .none)
    (fun (status, progress, ()) => ⟨status, progress⟩)
    (fun m => (m.status, m.progress, ()))

structure Batch where
  keyword : String
  contents : Option (List Content)
  crawledAt : Time.Instant
deriving DecidableEq, Repr

def Batch.shape : Shape Batch :=
  .record "BatchInput"
    (.required "keyword" .text <|
      .optional "content_list" (.sequence (Content.shape .received)) <|
      .required "crawled_at" .instant .none)
    (fun (keyword, contents, crawledAt, ()) => ⟨keyword, contents, crawledAt⟩)
    (fun b => (b.keyword, b.contents, b.crawledAt, ()))

structure JobMessage where
  platform : Platform
  status : Option JobStatus
  progress : Option Progress
  batch : Option Batch
deriving DecidableEq, Repr

def JobMessage.shape : Shape JobMessage :=
  .record "JobInputMessage"
    (.required "platform" (.choice inferInstance) <|
      .optional "status" (.choice inferInstance) <|
      .optional "progress" Progress.shape <|
      .optional "batch" Batch.shape .none)
    (fun (platform, status, progress, batch, ()) => ⟨platform, status, progress, batch⟩)
    (fun m => (m.platform, m.status, m.progress, m.batch, ()))

end NotificationRelay.Input
