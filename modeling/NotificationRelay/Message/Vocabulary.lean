import NotificationRelay.Shape.Basic

/-! The closed vocabularies of messages. -/
namespace NotificationRelay

inductive Platform where
  | tiktok
  | youtube
  | instagram
deriving DecidableEq, Repr

instance : Vocabulary Platform where
  all := [.tiktok, .youtube, .instagram]
  word
    | .tiktok => "TIKTOK"
    | .youtube => "YOUTUBE"
    | .instagram => "INSTAGRAM"

inductive ProjectStatus where
  | initializing
  | crawling
  | processing
  | completed
  | failed
  | paused
deriving DecidableEq, Repr

instance : Vocabulary ProjectStatus where
  all := [.initializing, .crawling, .processing, .completed, .failed, .paused]
  word
    | .initializing => "INITIALIZING"
    | .crawling => "CRAWLING"
    | .processing => "PROCESSING"
    | .completed => "COMPLETED"
    | .failed => "FAILED"
    | .paused => "PAUSED"

inductive PhaseStatus where
  | initializing
  | processing
  | done
  | failed
deriving DecidableEq, Repr

instance : Vocabulary PhaseStatus where
  all := [.initializing, .processing, .done, .failed]
  word
    | .initializing => "INITIALIZING"
    | .processing => "PROCESSING"
    | .done => "DONE"
    | .failed => "FAILED"

inductive JobStatus where
  | processing
  | completed
  | failed
  | paused
deriving DecidableEq, Repr

instance : Vocabulary JobStatus where
  all := [.processing, .completed, .failed, .paused]
  word
    | .processing => "PROCESSING"
    | .completed => "COMPLETED"
    | .failed => "FAILED"
    | .paused => "PAUSED"

inductive PhaseEvent where
  | progress
  | completed
deriving DecidableEq, Repr

instance : Vocabulary PhaseEvent where
  all := [.progress, .completed]
  word
    | .progress => "project_progress"
    | .completed => "project_completed"

inductive MessageKind where
  | project
  | projectPhase
  | job
  | unknown
deriving DecidableEq, Repr

instance : Vocabulary MessageKind where
  all := [.project, .projectPhase, .job, .unknown]
  word
    | .project => "project"
    | .projectPhase => "project_phase"
    | .job => "job"
    | .unknown => "unknown"

end NotificationRelay
