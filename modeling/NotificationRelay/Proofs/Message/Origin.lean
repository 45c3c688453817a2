import NotificationRelay.Message.Input
import NotificationRelay.Message.Phase
import NotificationRelay.Proofs.Message.Written

/-! Where each field of a message that is read comes from. -/
namespace NotificationRelay

open Json
open Members (locates_of_rule locates_unruled traces_none traces_required traces_lenient
  traces_optional)
open Rule (natural_traces_word number_traces_real flag_traces_flag traces_text
  timestamp_traces_instant word_traces_choice texts_traces_texts object_traces_record
  objects_traces_sequence)

structure Input.Progress.FoundIn (p : Input.Progress) (members : List (String × Json)) : Prop where
  current : Written.lenient "current" 0 Written.word p.current members
  total : Written.lenient "total" 0 Written.word p.total members
  percentage : Written.lenient "percentage" .zero Written.real p.percentage members
  eta : Written.lenient "eta" .zero Written.real p.eta members
  errors : Written.optional "errors" (Written.list Written.text) p.errors members

structure Input.ProjectMessage.FoundIn (m : Input.ProjectMessage)
    (members : List (String × Json)) : Prop where
  status : Written.optional "status" Written.choice m.status members
  progress : Written.optional "progress" (Written.object Input.Progress.FoundIn) m.progress members

structure PhaseProgress.FoundIn (p : PhaseProgress) (members : List (String × Json)) : Prop where
  total : Written.lenient "total" 0 Written.word p.total members
  done : Written.lenient "done" 0 Written.word p.done members
  errors : Written.lenient "errors" 0 Written.word p.errors members
  percent : Written.lenient "progress_percent" .zero Written.real p.percent members

structure PhasePayload.FoundIn (p : PhasePayload) (members : List (String × Json)) : Prop where
  projectId : Written.required "project_id" Written.text p.projectId members
  status : Written.required "status" Written.choice p.status members
  crawl : Written.optional "crawl" (Written.object PhaseProgress.FoundIn) p.crawl members
  analyze : Written.optional "analyze" (Written.object PhaseProgress.FoundIn) p.analyze members
  overallPercent :
    Written.required "overall_progress_percent" Written.real p.overallPercent members

structure PhaseMessage.FoundIn (m : PhaseMessage) (members : List (String × Json)) : Prop where
  event : Written.required "type" Written.choice m.event members
  payload : Written.required "payload" (Written.object PhasePayload.FoundIn) m.payload members

structure Author.FoundIn (a : Author) (members : List (String × Json)) : Prop where
  id : Written.lenient "id" "" Written.text a.id members
  username : Written.lenient "username" "" Written.text a.username members
  name : Written.lenient "name" "" Written.text a.name members
  followers : Written.lenient "followers" 0 Written.word a.followers members
  isVerified : Written.lenient "is_verified" false Written.flag a.isVerified members
  avatarUrl : Written.optional "avatar_url" Written.text a.avatarUrl members

structure Reach.FoundIn (r : Reach) (members : List (String × Json)) : Prop where
  views : Written.lenient "views" 0 Written.word r.views members
  likes : Written.lenient "likes" 0 Written.word r.likes members
  comments : Written.lenient "comments" 0 Written.word r.comments members
  shares : Written.lenient "shares" 0 Written.word r.shares members
  rate : Written.lenient "rate" .zero Written.real r.rate members

structure Media.FoundIn (m : Media) (members : List (String × Json)) : Prop where
  kind : Written.required "type" Written.text m.kind members
  duration : Written.optional "duration" Written.real m.duration members
  thumbnail : Written.optional "thumbnail" Written.text m.thumbnail members
  url : Written.optional "url" Written.text m.url members

structure Content.FoundIn (c : Content) (members : List (String × Json)) : Prop where
  id : Written.required "id" Written.text c.id members
  text : Written.lenient "text" "" Written.text c.text members
  author : Written.lenient "author" .unknown (Written.object Author.FoundIn) c.author members
  reach : Written.lenient "metrics" .none (Written.object Reach.FoundIn) c.reach members
  media : Written.optional "media" (Written.object Media.FoundIn) c.media members
  publishedAt : Written.required "published_at" Written.instant c.publishedAt members
  permalink : Written.lenient "permalink" "" Written.text c.permalink members

structure Input.Batch.FoundIn (b : Input.Batch) (members : List (String × Json)) : Prop where
  keyword : Written.required "keyword" Written.text b.keyword members
  contents : Written.optional "content_list" (Written.list (Written.object Content.FoundIn))
    b.contents members
  crawledAt : Written.required "crawled_at" Written.instant b.crawledAt members

structure Input.JobMessage.FoundIn (m : Input.JobMessage) (members : List (String × Json)) :
    Prop where
  platform : Written.required "platform" Written.choice m.platform members
  status : Written.optional "status" Written.choice m.status members
  progress : Written.optional "progress" (Written.object Input.Progress.FoundIn) m.progress members
  batch : Written.optional "batch" (Written.object Input.Batch.FoundIn) m.batch members

theorem progress_traces :
    (Rule.object Schema.progress).Traces Input.Progress.shape
      (Written.object Input.Progress.FoundIn) :=
  object_traces_record (by decide)
    (traces_lenient (locates_of_rule (by simp [Schema.progress]) natural_traces_word) <|
      traces_lenient (locates_of_rule (by simp [Schema.progress]) natural_traces_word) <|
      traces_lenient (locates_of_rule (by simp [Schema.progress]) number_traces_real) <|
      traces_lenient (locates_of_rule (by simp [Schema.progress]) number_traces_real) <|
      traces_optional (locates_of_rule (by simp [Schema.progress]) texts_traces_texts) <|
      traces_none)
    fun _ _ ⟨current, total, percentage, eta, errors, _⟩ =>
      ⟨current, total, percentage, eta, errors⟩

theorem project_traces :
    (Rule.object Schema.project).Traces Input.ProjectMessage.shape
      (Written.object Input.ProjectMessage.FoundIn) :=
  object_traces_record (by decide)
    (traces_optional (locates_of_rule (by simp [Schema.project]) (word_traces_choice Schema.refuseStatus)) <|
      traces_optional (locates_of_rule (by simp [Schema.project]) progress_traces) <|
      traces_none)
    fun _ _ ⟨status, progress, _⟩ => ⟨status, progress⟩

theorem phaseProgress_traces :
    (Rule.object Schema.phaseProgress).Traces (PhaseProgress.shape .received)
      (Written.object PhaseProgress.FoundIn) :=
  object_traces_record (by decide)
    (traces_lenient (locates_of_rule (by simp [Schema.phaseProgress]) natural_traces_word) <|
      traces_lenient (locates_of_rule (by simp [Schema.phaseProgress]) natural_traces_word) <|
      traces_lenient (locates_of_rule (by simp [Schema.phaseProgress]) natural_traces_word) <|
      traces_lenient (locates_of_rule (by simp [Schema.phaseProgress]) number_traces_real) <|
      traces_none)
    fun _ _ ⟨total, done, errors, percent, _⟩ => ⟨total, done, errors, percent⟩

theorem phasePayload_traces :
    (Rule.object Schema.phasePayload).Traces (PhasePayload.shape .received)
      (Written.object PhasePayload.FoundIn) :=
  object_traces_record (by decide)
    (traces_required (by simp [Schema.phasePayload]) (traces_text .name) <|
      traces_required (by simp [Schema.phasePayload]) (word_traces_choice Schema.refusePhaseStatus) <|
      traces_optional (locates_of_rule (by simp [Schema.phasePayload]) phaseProgress_traces) <|
      traces_optional (locates_of_rule (by simp [Schema.phasePayload]) phaseProgress_traces) <|
      traces_required (by simp [Schema.phasePayload]) number_traces_real <|
      traces_none)
    fun _ _ ⟨projectId, status, crawl, analyze, overallPercent, _⟩ =>
      ⟨projectId, status, crawl, analyze, overallPercent⟩

theorem projectPhase_traces :
    (Rule.object Schema.projectPhase).Traces (PhaseMessage.shape .received)
      (Written.object PhaseMessage.FoundIn) :=
  object_traces_record (by decide)
    (traces_required (by simp [Schema.projectPhase]) (word_traces_choice Schema.refuseEvent) <|
      traces_required (by simp [Schema.projectPhase]) phasePayload_traces <|
      traces_none)
    fun _ _ ⟨event, payload, _⟩ => ⟨event, payload⟩

theorem author_traces :
    (Rule.object Schema.author).Traces (Author.shape .received)
      (Written.object Author.FoundIn) :=
  object_traces_record (by decide)
    (traces_lenient (locates_of_rule (by simp [Schema.author]) (traces_text .text)) <|
      traces_lenient (locates_of_rule (by simp [Schema.author]) (traces_text .text)) <|
      traces_lenient (locates_of_rule (by simp [Schema.author]) (traces_text .text)) <|
      traces_lenient (locates_of_rule (by simp [Schema.author]) natural_traces_word) <|
      traces_lenient (locates_of_rule (by simp [Schema.author]) flag_traces_flag) <|
      traces_optional (locates_of_rule (by simp [Schema.author]) (traces_text .text)) <|
      traces_none)
    fun _ _ ⟨id, username, name, followers, isVerified, avatarUrl, _⟩ =>
      ⟨id, username, name, followers, isVerified, avatarUrl⟩

theorem reach_traces :
    (Rule.object Schema.reach).Traces (Reach.shape .received) (Written.object Reach.FoundIn) :=
  object_traces_record (by decide)
    (traces_lenient (locates_of_rule (by simp [Schema.reach]) natural_traces_word) <|
      traces_lenient (locates_of_rule (by simp [Schema.reach]) natural_traces_word) <|
      traces_lenient (locates_of_rule (by simp [Schema.reach]) natural_traces_word) <|
      traces_lenient (locates_of_rule (by simp [Schema.reach]) natural_traces_word) <|
      traces_lenient (locates_of_rule (by simp [Schema.reach]) number_traces_real) <|
      traces_none)
    fun _ _ ⟨views, likes, comments, shares, rate, _⟩ => ⟨views, likes, comments, shares, rate⟩

theorem media_traces :
    (Rule.object Schema.media).Traces (Media.shape .received) (Written.object Media.FoundIn) :=
  object_traces_record (by decide)
    (traces_required (by simp [Schema.media]) (traces_text .name) <|
      traces_optional (locates_of_rule (by simp [Schema.media]) number_traces_real) <|
      traces_optional locates_unruled <|
      traces_optional locates_unruled <|
      traces_none)
    fun _ _ ⟨kind, duration, thumbnail, url, _⟩ => ⟨kind, duration, thumbnail, url⟩

theorem content_traces :
    (Rule.object Schema.content).Traces (Content.shape .received)
      (Written.object Content.FoundIn) :=
  object_traces_record (by decide)
    (traces_required (by simp [Schema.content]) (traces_text .name) <|
      traces_lenient (locates_of_rule (by simp [Schema.content]) (traces_text .text)) <|
      traces_lenient (locates_of_rule (by simp [Schema.content]) author_traces) <|
      traces_lenient (locates_of_rule (by simp [Schema.content]) reach_traces) <|
      traces_optional (locates_of_rule (by simp [Schema.content]) media_traces) <|
      traces_required (by simp [Schema.content]) timestamp_traces_instant <|
      traces_lenient (locates_of_rule (by simp [Schema.content]) (traces_text .text)) <|
      traces_none)
    fun _ _ ⟨id, body, author, reach, media, publishedAt, permalink, _⟩ =>
      ⟨id, body, author, reach, media, publishedAt, permalink⟩

theorem batch_traces :
    (Rule.object Schema.batch).Traces Input.Batch.shape (Written.object Input.Batch.FoundIn) :=
  object_traces_record (by decide)
    (traces_required (by simp [Schema.batch]) (traces_text .text) <|
      traces_optional (locates_of_rule (by simp [Schema.batch])
        (objects_traces_sequence content_traces)) <|
      traces_required (by simp [Schema.batch]) timestamp_traces_instant <|
      traces_none)
    fun _ _ ⟨keyword, contents, crawledAt, _⟩ => ⟨keyword, contents, crawledAt⟩

theorem job_traces :
    (Rule.object Schema.job).Traces Input.JobMessage.shape
      (Written.object Input.JobMessage.FoundIn) :=
  object_traces_record (by decide)
    (traces_required (by simp [Schema.job]) (word_traces_choice Schema.refusePlatform) <|
      traces_optional (locates_of_rule (by simp [Schema.job])
        (word_traces_choice Schema.refuseStatus)) <|
      traces_optional (locates_of_rule (by simp [Schema.job]) progress_traces) <|
      traces_optional (locates_of_rule (by simp [Schema.job]) batch_traces) <|
      traces_none)
    fun _ _ ⟨platform, status, progress, batch, _⟩ => ⟨platform, status, progress, batch⟩

end NotificationRelay
