import NotificationRelay.Admission.Sweeper
import NotificationRelay.Failure.Chain
import NotificationRelay.Server.Answer
import NotificationRelay.Settings.Load
import NotificationRelay.Proofs.Admission.Course
import NotificationRelay.Proofs.Admission.Quota
import NotificationRelay.Proofs.Admission.Window
import NotificationRelay.Proofs.Json.Skip
import NotificationRelay.Proofs.Shape.Tree
import NotificationRelay.Proofs.Binary64
import NotificationRelay.Proofs.Json.Sound
import NotificationRelay.Proofs.Shape.Record
import NotificationRelay.Proofs.Time
import NotificationRelay.Proofs.Message.Schema
import NotificationRelay.Proofs.Message.Readable
import NotificationRelay.Proofs.Transform.Parse
import NotificationRelay.Proofs.Message.Normal
import NotificationRelay.Proofs.Message.Received
import NotificationRelay.Proofs.Transform.Output
import NotificationRelay.Proofs.Admission.Occupancy
import NotificationRelay.Proofs.Hub.Session
import NotificationRelay.Proofs.Hub.Delivery
import NotificationRelay.Proofs.Hub.Bookkeeping
import NotificationRelay.Proofs.Server.Effect
import NotificationRelay.Proofs.Server.Sockets
import NotificationRelay.Proofs.Message.Origin
import NotificationRelay.Proofs.Shape.Places
import NotificationRelay.Proofs.Transform.Typed
import NotificationRelay.Proofs.Admission.Omission
import NotificationRelay.Proofs.Relay.Account
import NotificationRelay.Proofs.Text.Phrase
import NotificationRelay.Proofs.Text.Excerpt
import NotificationRelay.Proofs.Message.Breach
import NotificationRelay.Proofs.Failure.Category
import NotificationRelay.Proofs.Json.Canonical
import NotificationRelay.Proofs.Json.Rendition
import NotificationRelay.Proofs.Shape.Core
import NotificationRelay.Proofs.Message.Blind
import NotificationRelay.Proofs.Transform.Core
import NotificationRelay.Proofs.Admission.Isolation
import NotificationRelay.Proofs.Topic
import NotificationRelay.Proofs.Failure.Refusal
import NotificationRelay.Proofs.Failure.Retry
import NotificationRelay.Proofs.Server.Budget
import NotificationRelay.Proofs.Server.Publish
import NotificationRelay.Proofs.Server.Rendition
import NotificationRelay.Proofs.Message.Exact
import NotificationRelay.Proofs.Message.RoundTrip
import NotificationRelay.Proofs.Transform.Accepted
import NotificationRelay.Proofs.Transform.Logged
import NotificationRelay.Proofs.Message.Sifted
import NotificationRelay.Proofs.Message.Repeats
import NotificationRelay.Proofs.Message.Mended
import NotificationRelay.Proofs.Message.Told
import NotificationRelay.Proofs.Message.Settled
import NotificationRelay.Proofs.Admission.Verdict
import NotificationRelay.Proofs.Admission.Sweep
import NotificationRelay.Proofs.Server.Channel
import NotificationRelay.Proofs.Binary64.Whole
import NotificationRelay.Proofs.Transform.Mapped
import NotificationRelay.Proofs.Ledger.Chronicle
import NotificationRelay.Proofs.Ledger.Words
import NotificationRelay.Proofs.Admission.Sweeper
import NotificationRelay.Proofs.Settings.Load
import NotificationRelay.Proofs.Yaml.Source
import NotificationRelay.Proofs.Yaml.Layout
import NotificationRelay.Proofs.Yaml.Scalar
