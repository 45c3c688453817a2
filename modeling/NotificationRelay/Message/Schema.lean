import NotificationRelay.Message.Violation
import NotificationRelay.Json.Printer
import NotificationRelay.Json.Reader
import NotificationRelay.Message.Vocabulary

/-! The schemas of payloads, as data, and their check on the tree of a payload. A check stops at
the first rule that is broken and names the path where it is. Null counts as missing. -/
namespace NotificationRelay

open Json

mutual

inductive Rule where
  | text
  | name
  | natural
  | number
  | flag
  | timestamp
  | texts
  /-- A text among `words`; `refuse` says what else is wrong about a value at a path. -/
  | word (words : List String) (refuse : Path → Json → Violation)
  | object (members : Members)
  | objects (members : Members)

/-- Rules for members, in the order of their check. -/
inductive Members where
  | none
  | cons (key : String) (required : Bool) (rule : Rule) (more : Members)

end

def isText : Json → Bool
  | .text _ => true
  | _ => false

def isNatural : Json → Bool
  | .number (.natural _) => true
  | _ => false

def isNumber : Json → Bool
  | .number _ => true
  | _ => false

def isFlag : Json → Bool
  | .flag _ => true
  | _ => false

def present (key : String) (members : List (String × Json)) : Option Json :=
  (Json.lookup key members).filter fun value => !value.isNull

def checkThat (accepted : Bool) (path : Path) (reason : String) : Except Violation Unit :=
  if accepted then .ok () else .error (.value path reason)

def checkTimestamp (path : Path) : Json → Except Violation Unit
  | .text raw =>
    match Time.parse raw with
    | .ok _ => .ok ()
    | .error e => .error (.value path (Text.quoted raw ++ ": " ++ e.text))
  | _ => .error (.value path "must be an RFC 3339 string")

def checkTexts (path : Path) : Json → Except Violation Unit
  | .list items =>
    match items.findIdx? fun item => !isText item with
    | some i => .error (.value (path ++ [.index i]) "must be a string")
    | none => .ok ()
  | _ => .error (.value path "must be an array")

mutual

def Rule.check (path : Path) : Rule → Json → Except Violation Unit
  | .text, value => checkThat (isText value) path "must be a string"
  | .name, .text s => if s.isEmpty then .error (.missingField path) else .ok ()
  | .name, _ => .error (.value path "must be a string")
  | .natural, value =>
    checkThat (isNatural value) path (value.printCanonical ++ " is not a non-negative integer")
  | .number, value => checkThat (isNumber value) path ("expected number, got " ++ value.kind)
  | .flag, value => checkThat (isFlag value) path "must be a boolean"
  | .timestamp, value => checkTimestamp path value
  | .texts, value => checkTexts path value
  | .word words refuse, value =>
    match value with
    | .text s => if s ∈ words then .ok () else .error (refuse path value)
    | _ => .error (refuse path value)
  | .object rules, value => rules.checkObject path value
  | .objects rules, .list items =>
    items.zipIdx.forM fun (item, i) => rules.checkObject (path ++ [.index i]) item
  | .objects _, _ => .error (.value path "must be an array")

def Members.checkObject (path : Path) (rules : Members) : Json → Except Violation Unit
  | .object members => rules.check path members
  | value => .error (.value path ("expected object, got " ++ value.kind))

def Members.check (path : Path) : Members → List (String × Json) → Except Violation Unit
  | .none, _ => .ok ()
  | .cons key required rule more, members => do
    match present key members with
    | some value => rule.check (path ++ [.key key]) value
    | Option.none => if required then throw (.missingField (path ++ [.key key]))
    more.check path members

end

namespace Members

def required (key : String) (rule : Rule) (more : Members) : Members := .cons key true rule more

def optional (key : String) (rule : Rule) (more : Members) : Members := .cons key false rule more

end Members

namespace Schema

def refuseStatus (_ : Path) : Json → Violation
  | .text s => .status s
  | value => .status value.printCanonical

def refusePlatform (_ : Path) : Json → Violation
  | .text s => .platform s
  | value => .platform value.printCanonical

def refusePhaseStatus (path : Path) : Json → Violation
  | .text s => .status s
  | _ => .value path "must be a string"

def refuseEvent (path : Path) : Json → Violation
  | .text s => .value path ("unsupported message type " ++ Text.quoted s)
  | _ => .value path "must be a string"

def progress : Members :=
  .optional "current" .natural <|
    .optional "total" .natural <|
    .optional "percentage" .number <|
    .optional "eta" .number <|
    .optional "errors" .texts .none

def project : Members :=
  .optional "status" (.word (Vocabulary.words ProjectStatus) refuseStatus) <|
    .optional "progress" (.object progress) .none

def phaseProgress : Members :=
  .optional "total" .natural <|
    .optional "done" .natural <|
    .optional "errors" .natural <|
    .optional "progress_percent" .number .none

def phasePayload : Members :=
  .required "project_id" .name <|
    .required "status" (.word (Vocabulary.words PhaseStatus) refusePhaseStatus) <|
    .optional "crawl" (.object phaseProgress) <|
    .optional "analyze" (.object phaseProgress) <|
    .required "overall_progress_percent" .number .none

def projectPhase : Members :=
  .required "type" (.word (Vocabulary.words PhaseEvent) refuseEvent) <|
    .required "payload" (.object phasePayload) .none

def author : Members :=
  .optional "id" .text <|
    .optional "username" .text <|
    .optional "name" .text <|
    .optional "avatar_url" .text <|
    .optional "followers" .natural <|
    .optional "is_verified" .flag .none

def reach : Members :=
  .optional "views" .natural <|
    .optional "likes" .natural <|
    .optional "comments" .natural <|
    .optional "shares" .natural <|
    .optional "rate" .number .none

def media : Members :=
  .required "type" .name <|
    .optional "duration" .number .none

def content : Members :=
  .required "id" .name <|
    .required "published_at" .timestamp <|
    .optional "text" .text <|
    .optional "permalink" .text <|
    .optional "author" (.object author) <|
    .optional "metrics" (.object reach) <|
    .optional "media" (.object media) .none

def batch : Members :=
  .required "keyword" .text <|
    .required "crawled_at" .timestamp <|
    .optional "content_list" (.objects content) .none

def job : Members :=
  .required "platform" (.word (Vocabulary.words Platform) refusePlatform) <|
    .optional "status" (.word (Vocabulary.words JobStatus) refuseStatus) <|
    .optional "progress" (.object progress) <|
    .optional "batch" (.object batch) .none

end Schema

inductive Layout where
  | flat
  | phased
deriving DecidableEq, Repr

namespace Payload

def members (payload : Bytes) : Except Violation (List (String × Json)) :=
  match Json.read payload with
  | .ok (.object members) => .ok members
  | .ok value => .error (.value [] ("expected a JSON object, got " ++ value.kind))
  | .error f => .error (.json (f.toText payload))

def hasKey (key : String) (members : List (String × Json)) : Bool :=
  members.any fun member => member.1 = key

/-- A project payload is phased if it has both keys of the envelope, whatever they hold. -/
def layout (members : List (String × Json)) : Layout :=
  if hasKey "type" members && hasKey "payload" members then .phased else .flat

def schema : Layout → Members
  | .flat => Schema.project
  | .phased => Schema.projectPhase

def checkProjectMembers (members : List (String × Json)) : Except Violation Unit :=
  (schema (layout members)).check [] members

def inLayer {α : Type} (layer : String) (result : Except Violation α) : Except Violation α :=
  result.mapError (Violation.within layer)

def checkProject (payload : Bytes) : Except Violation Layout :=
  inLayer "project input" do
    let members ← members payload
    checkProjectMembers members
    return layout members

def checkJob (payload : Bytes) : Except Violation Unit :=
  inLayer "job input" do
    let members ← members payload
    Schema.job.check [] members

end Payload

end NotificationRelay
