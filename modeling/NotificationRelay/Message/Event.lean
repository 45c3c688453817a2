import NotificationRelay.Failure.Report
import NotificationRelay.Message.Schema

/-! What the log says about the way of a payload. -/
namespace NotificationRelay

inductive Event where
  | layoutFound (layout : Layout)
  | percentageClamped (path : Path) (given clamped : Binary64)
  | etaClamped (given : Binary64)
  | duplicateSkipped (id : String)
  | duplicatesDropped (keyword : String) (dropped kept : Nat)
  | projectTransformed (kind : MessageKind)
  | jobTransformed (platform : Platform)
  | failed (report : Report)
deriving DecidableEq, Repr

def Layout.label : Layout → String
  | .flat => "Legacy"
  | .phased => "Phase"

def Event.line : Event → Log.Line
  | .layoutFound layout => ⟨.debug, "project_format_detected", [("format", .text layout.label)]⟩
  | .percentageClamped path given clamped =>
    ⟨.warn, "percentage_clamped",
      [("field", .text path.toText), ("original", .real given), ("clamped", .real clamped)]⟩
  | .etaClamped given =>
    ⟨.warn, "eta_clamped",
      [("field", .text "eta"), ("original", .real given), ("clamped", .real .zero)]⟩
  | .duplicateSkipped id => ⟨.debug, "duplicate_content_skipped", [("content_id", .text id)]⟩
  | .duplicatesDropped keyword dropped kept =>
    ⟨.warn, "duplicate_content_dropped",
      [("keyword", .text keyword), ("duplicates", .natural dropped), ("kept", .natural kept)]⟩
  | .projectTransformed kind =>
    ⟨.debug, "project_transformed", [("message_type", .text (Vocabulary.word kind))]⟩
  | .jobTransformed platform =>
    ⟨.debug, "job_transformed", [("platform", .text (Vocabulary.word platform))]⟩
  | .failed report => report.line

end NotificationRelay
