import NotificationRelay.Message.Side
import NotificationRelay.Message.Vocabulary
import NotificationRelay.Shape.Reader
import NotificationRelay.Shape.Writer

/-! Project messages with a progress block for each phase. -/
namespace NotificationRelay

structure PhaseProgress where
  total : UInt64
  done : UInt64
  errors : UInt64
  percent : Binary64
deriving DecidableEq, Repr

def PhaseProgress.shape (side : Side) : Shape PhaseProgress :=
  .record (side.pick "PhaseProgressInput" "PhaseProgress")
    (.expected side "total" 0 .word <|
      .expected side "done" 0 .word <|
      .expected side "errors" 0 .word <|
      .expected side "progress_percent" .zero .real .none)
    (fun (total, done, errors, percent, ()) => ⟨total, done, errors, percent⟩)
    (fun p => (p.total, p.done, p.errors, p.percent, ()))

structure PhasePayload where
  projectId : String
  status : PhaseStatus
  crawl : Option PhaseProgress
  analyze : Option PhaseProgress
  overallPercent : Binary64
deriving DecidableEq, Repr

def PhasePayload.shape (side : Side) : Shape PhasePayload :=
  .record (side.pick "ProjectPhasePayloadInput" "ProjectPhasePayload")
    (.required "project_id" .text <|
      .required "status" (.choice inferInstance) <|
      .optional "crawl" (PhaseProgress.shape side) <|
      .optional "analyze" (PhaseProgress.shape side) <|
      .required "overall_progress_percent" .real .none)
    (fun (projectId, status, crawl, analyze, overall, ()) =>
      ⟨projectId, status, crawl, analyze, overall⟩)
    (fun p => (p.projectId, p.status, p.crawl, p.analyze, p.overallPercent, ()))

structure PhaseMessage where
  event : PhaseEvent
  payload : PhasePayload
deriving DecidableEq, Repr

def PhaseMessage.shape (side : Side) : Shape PhaseMessage :=
  .record (side.pick "ProjectPhaseInputMessage" "ProjectPhaseNotificationMessage")
    (.required "type" (.choice inferInstance) <|
      .required "payload" (PhasePayload.shape side) .none)
    (fun (event, payload, ()) => ⟨event, payload⟩)
    (fun m => (m.event, m.payload, ()))

end NotificationRelay
