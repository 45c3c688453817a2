import NotificationRelay.Proofs.Json.Rendition
import NotificationRelay.Proofs.Server.Publish
import NotificationRelay.Proofs.Transform.Core

/-! Two ways to publish an object: as a value, which is printed with its members in order, or as any
text of it. What becomes of it is the same either way. -/
namespace NotificationRelay

open Json Transform

namespace Payload

theorem hasKey_canonical {members : List (String × Json)} (once : (members.map (·.1)).Nodup)
    (key : String) : hasKey key (canonicalMembers [] members) = hasKey key members := by
  rw [hasKey, hasKey, (perm_canonical once).any_eq, List.any_map]
  rfl

theorem layout_canonical {members : List (String × Json)} (once : (members.map (·.1)).Nodup) :
    layout (canonicalMembers [] members) = layout members := by
  rw [layout, layout, hasKey_canonical once, hasKey_canonical once]

end Payload

namespace Transform

/-- A payload and one that spells the same object in canonical form come out alike. -/
theorem alike_canonical (kind : Topic.Kind) (nanos nanos' : Nat) {payload payload' : Bytes}
    {members : List (String × Json)} (distinct : (Json.object members).Distinct)
    (read : Json.read payload = .ok (Json.object members).canonical)
    (read' : Json.read payload' = .ok (.object members)) :
    Alike (ofKind kind nanos payload).value (ofKind kind nanos' payload').value := by
  have ordered := distinct.canonical
  obtain ⟨once, _⟩ := distinct.members
  have same {α : Type} (shape : Shape α) :
      shape.core (Json.object members).canonical = shape.core (.object members) :=
    shape.core_canonical distinct
  cases kind with
  | project =>
    have layouts := Payload.layout_canonical once
    refine alike_project nanos nanos' read read' ordered distinct layouts ?_
    rw [layouts]
    cases Payload.layout members with
    | flat => exact same _
    | phased => exact same _
  | job => exact alike_job nanos nanos' read read' ordered distinct (same _)

end Transform

namespace Server

open Http

/-- Results of publishing that differ in words at most. -/
inductive Matches : Except Fault Receipt → Except Fault Receipt → Prop
  | receipt (receipt : Receipt) : Matches (.ok receipt) (.ok receipt)
  | fault {fault fault' : Fault} (status : fault.status = fault'.status) :
      Matches (.error fault) (.error fault')

theorem Matches.reply {result result' : Except Fault Receipt} (same : Matches result result')
    {reply reply' : Reply} (tells : Tells reply result) (tells' : Tells reply' result') :
    reply.status = reply'.status ∧ (reply.status = 200 → reply.body = reply'.body) := by
  cases same with
  | receipt receipt => exact ⟨tells.1.trans tells'.1.symm, fun _ => tells.2.trans tells'.2.symm⟩
  | @fault fault fault' status =>
    refine ⟨tells.1.trans (status.trans tells'.1.symm), fun ok => ?_⟩
    exact absurd (tells.1.symm.trans ok) fault.status_ne_ok

section

variable {s : Server} {nanos nanos' : Nat} {p q : Publication}

/-- Both publications come to the same, on the hub and for the publisher. -/
def SameFate (s : Server) (nanos nanos' : Nat) (p q : Publication) : Prop :=
  Matches (s.publish nanos p).2 (s.publish nanos' q).2 ∧
    (s.publish nanos p).1.hub = (s.publish nanos' q).1.hub

theorem sameFate_of_error {failure failure' : Failure}
    (fails : (s.relay.transform nanos p.channel p.bytes).2.2 = .error failure)
    (fails' : (s.relay.transform nanos' q.channel q.bytes).2.2 = .error failure')
    (status : (Fault.transform failure).status = (Fault.transform failure').status) :
    s.SameFate nanos nanos' p q := by
  obtain ⟨told, hub⟩ := publish_error fails
  obtain ⟨told', hub'⟩ := publish_error fails'
  rw [SameFate, told, told', hub, hub']
  exact ⟨.fault status, rfl⟩

theorem sameFate_of_ok {topic : Topic} {message : Notification}
    (made : (s.relay.transform nanos p.channel p.bytes).2.2 = .ok (topic, message))
    (made' : (s.relay.transform nanos' q.channel q.bytes).2.2 = .ok (topic, message)) :
    s.SameFate nanos nanos' p q := by
  obtain ⟨told, hub⟩ := publish_ok made
  obtain ⟨told', hub'⟩ := publish_ok made'
  rw [SameFate, told, told', hub, hub']
  exact ⟨.receipt _, rfl⟩

theorem sameFate_of_alike (channel : p.channel = q.channel)
    (alike : ∀ kind, Alike (ofKind kind nanos p.bytes).value (ofKind kind nanos' q.bytes).value) :
    s.SameFate nanos nanos' p q := by
  have value (nanos : Nat) (p : Publication) : (s.relay.transform nanos p.channel p.bytes).2.2 =
      (onChannel s.relay.settings.transform.excerpt nanos p.channel p.bytes).value := rfl
  have first := value nanos p
  have second := value nanos' q
  cases parsed : Topic.parse p.channel with
  | error v =>
    rw [value_onChannel_error _ _ _ parsed] at first
    rw [value_onChannel_error _ _ _ (channel ▸ parsed)] at second
    exact sameFate_of_error first second rfl
  | ok topic =>
    rw [value_onChannel_ok _ _ _ parsed] at first
    rw [value_onChannel_ok _ _ _ (channel ▸ parsed)] at second
    have both := alike topic.kind
    generalize (ofKind topic.kind nanos p.bytes).value = outcome at first both
    generalize (ofKind topic.kind nanos' q.bytes).value = outcome' at second both
    cases both with
    | same =>
      cases outcome with
      | error failure => exact sameFate_of_error first second rfl
      | ok message => exact sameFate_of_ok first second
    | unread kind reason reason' => exact sameFate_of_error first second rfl

end

/-- An object that is published as a value, and as any text of it that has no key twice, comes to
the same: the reply has the same status and, unless it tells of a fault, the same body, and the same
texts go to the same sessions. -/
theorem publish_either_form {text : String} {members : List (String × Json)}
    (spells : Spells text (.object members)) (renders : Renders (.object members)) (s : Server)
    (channel : String) :
    (∀ nanos nanos', s.SameFate nanos nanos' ⟨channel, .object members⟩ ⟨channel, .text text⟩) ∧
      ∀ r r', s.readPublication r = .ok ⟨channel, .object members⟩ →
        s.readPublication r' = .ok ⟨channel, .text text⟩ →
        let reply := (s.answerPublish r).2
        let reply' := (s.answerPublish r').2
        reply.status = reply'.status ∧ (reply.status = 200 → reply.body = reply'.body) ∧
          (s.answerPublish r).1.hub = (s.answerPublish r').1.hub := by
  obtain ⟨w, read, distinct, same⟩ := spells
  obtain ⟨written, rfl⟩ : ∃ written, w = .object written := by
    refine eq_object_of_kind ?_
    rw [← kind_canonical, same]
    rfl
  -- what the value is printed as is read as the canonical form of what the text is read as
  have reread := read_printCanonical read distinct same renders
  have fate (nanos nanos' : Nat) :
      s.SameFate nanos nanos' ⟨channel, .object members⟩ ⟨channel, .text text⟩ :=
    sameFate_of_alike rfl fun kind => alike_canonical kind nanos nanos' distinct reread read
  refine ⟨fate, fun r r' tree raw => ?_⟩
  obtain ⟨published, tells⟩ := answerPublish_tells tree
  obtain ⟨published', tells'⟩ := answerPublish_tells raw
  obtain ⟨results, hub⟩ := fate 0 0
  obtain ⟨status, body⟩ := results.reply tells tells'
  exact ⟨status, body, by rw [published, published', hub]⟩

def numbered : List (String × Json) :=
  [("rank", .list [.number (.natural 1)]), ("platform", .text "TIKTOK")]

def numberedText : String := "\x7b \"platform\": \"TIKTOK\", \"rank\": [ 1 ] \x7d"

theorem publish_either_form_numbered :
    Spells numberedText (.object numbered) ∧ Renders (.object numbered) ∧
      (attended.publish 1 ⟨"job:j1:u", .object numbered⟩).2 = .ok ⟨.job, 1⟩ := by
  have read : Json.read (Utf8.encode numberedText) = .ok (.object
      [("platform", .text "TIKTOK"), ("rank", .list [.number (.natural 1)])]) := by cbv
  have rank : (Json.list [.number (.natural 1)]).Distinct :=
    .list (by simpa using Distinct.number _)
  have distinct : (Json.object
      [("platform", .text "TIKTOK"), ("rank", .list [.number (.natural 1)])]).Distinct :=
    .object (by decide) (by simpa using ⟨.text _, rank⟩)
  have spells : Spells numberedText (.object numbered) := ⟨_, read, distinct, rfl⟩
  have renders : Renders (.object numbered) := rfl
  -- the text is published and heard by the one who listens; so is the value
  have parsed : Topic.parse "job:j1:u" = .ok ⟨.job, "j1", "u"⟩ := by cbv
  have made : (ofKind .job 2 (Utf8.encode numberedText)).value =
      .ok (.job ⟨.tiktok, none, none, none⟩) := by cbv
  have sent : (attended.relay.transform 2 "job:j1:u" (Utf8.encode numberedText)).2.2 =
      .ok (⟨.job, "j1", "u"⟩, .job ⟨.tiktok, none, none, none⟩) := by
    change (onChannel _ 2 _ _).value = _
    rw [value_onChannel_ok _ _ _ parsed, made]
    rfl
  have told : (attended.publish 2 ⟨"job:j1:u", .text numberedText⟩).2 = .ok ⟨.job, 1⟩ :=
    (@publish_ok attended ⟨"job:j1:u", .text numberedText⟩ 2 _ _ sent).1
  obtain ⟨both, _⟩ := (publish_either_form spells renders attended "job:j1:u").1 1 2
  rw [told] at both
  generalize (attended.publish 1 _).2 = result at both ⊢
  cases both
  exact ⟨spells, renders, rfl⟩

end Server

end NotificationRelay
