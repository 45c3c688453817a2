import NotificationRelay.Message.Side
import NotificationRelay.Shape.Reader
import NotificationRelay.Shape.Writer

/-! Crawled posts. -/
namespace NotificationRelay

structure Author where
  id : String
  username : String
  name : String
  followers : UInt64
  isVerified : Bool
  avatarUrl : Option String
deriving DecidableEq, Repr

def Author.unknown : Author := ⟨"", "", "", 0, false, none⟩

def Author.shape (side : Side) : Shape Author :=
  .record (side.pick "AuthorInput" "Author")
    (.expected side "id" "" .text <|
      .expected side "username" "" .text <|
      .expected side "name" "" .text <|
      .expected side "followers" 0 .word <|
      .expected side "is_verified" false .flag <|
      .optional "avatar_url" .text .none)
    (fun (id, username, name, followers, isVerified, avatarUrl, ()) =>
      ⟨id, username, name, followers, isVerified, avatarUrl⟩)
    (fun a => (a.id, a.username, a.name, a.followers, a.isVerified, a.avatarUrl, ()))

structure Reach where
  views : UInt64
  likes : UInt64
  comments : UInt64
  shares : UInt64
  rate : Binary64
deriving DecidableEq, Repr

def Reach.none : Reach := ⟨0, 0, 0, 0, .zero⟩

def Reach.shape (side : Side) : Shape Reach :=
  .record (side.pick "MetricsInput" "ContentMetrics")
    (.expected side "views" 0 .word <|
      .expected side "likes" 0 .word <|
      .expected side "comments" 0 .word <|
      .expected side "shares" 0 .word <|
      .expected side "rate" .zero .real .none)
    (fun (views, likes, comments, shares, rate, ()) => ⟨views, likes, comments, shares, rate⟩)
    (fun m => (m.views, m.likes, m.comments, m.shares, m.rate, ()))

structure Media where
  kind : String
  duration : Option Binary64
  thumbnail : Option String
  url : Option String
deriving DecidableEq, Repr

def Media.shape (side : Side) : Shape Media :=
  .record (side.pick "MediaInput" "Media")
    (.required "type" .text <|
      .optional "duration" .real <|
      .optional "thumbnail" .text <|
      .optional "url" .text .none)
    (fun (kind, duration, thumbnail, url, ()) => ⟨kind, duration, thumbnail, url⟩)
    (fun m => (m.kind, m.duration, m.thumbnail, m.url, ()))

structure Content where
  id : String
  text : String
  author : Author
  reach : Reach
  media : Option Media
  publishedAt : Time.Instant
  permalink : String
deriving DecidableEq, Repr

def Content.shape (side : Side) : Shape Content :=
  .record (side.pick "ContentInput" "ContentItem")
    (.required "id" .text <|
      .expected side "text" "" .text <|
      .expected side "author" .unknown (Author.shape side) <|
      .expected side "metrics" .none (Reach.shape side) <|
      .optional "media" (Media.shape side) <|
      .required "published_at" .instant <|
      .expected side "permalink" "" .text .none)
    (fun (id, text, author, reach, media, publishedAt, permalink, ()) =>
      ⟨id, text, author, reach, media, publishedAt, permalink⟩)
    (fun c => (c.id, c.text, c.author, c.reach, c.media, c.publishedAt, c.permalink, ()))

end NotificationRelay
