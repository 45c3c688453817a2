import NotificationRelay.Proofs.Server.Route
import NotificationRelay.Server.Answer

/-! Keys of requests. Some routes ask for one; a request that presents none of the server is turned
away and leaves nothing behind, and any other one uses the budget of its key. -/
namespace NotificationRelay

theorem Text.prefix_iff {word value : String} :
    word.toList <+: value.toList ↔ ∃ rest, value = word ++ rest := by
  constructor
  · rintro ⟨rest, split⟩
    refine ⟨String.ofList rest, ?_⟩
    rw [← String.toList_inj, String.toList_append, String.toList_ofList, split]
  · rintro ⟨rest, rfl⟩
    rw [String.toList_append]
    exact List.prefix_append ..

namespace Server

open Http

/-- The request presents the key: the value of the first header of the one name, or of the other if
there is none of that name, is text and is the key, with or without a word in front of it. -/
def Presents (r : Request) (key : String) : Prop :=
  ∃ value, (r.header? "x-api-key" = some value ∨
      (r.header? "x-api-key" = none ∧ r.header? "authorization" = some value)) ∧
    isPlain value ∧
    (value = "Bearer " ++ key ∨ ((∀ rest, value ≠ "Bearer " ++ rest) ∧ value = key))

theorem bareKey_eq_iff {value key : String} :
    bareKey value = key ↔
      value = "Bearer " ++ key ∨ ((∀ rest, value ≠ "Bearer " ++ rest) ∧ value = key) := by
  unfold bareKey
  generalize "Bearer " = word
  dsimp only
  split
  · rename_i led
    obtain ⟨rest, rfl⟩ := Text.prefix_iff.mp (List.isPrefixOf_iff_prefix.mp led)
    have bare : String.ofList ((word ++ rest).toList.drop word.toList.length) = rest := by
      rw [String.toList_append, List.drop_left, String.ofList_toList]
    rw [bare]
    constructor
    · rintro rfl
      exact .inl rfl
    · rintro (same | ⟨none, _⟩)
      · exact String.append_right_inj word |>.mp same
      · exact absurd rfl (none rest)
  · rename_i bare
    have none (rest : String) : value ≠ word ++ rest := fun led =>
      bare (List.isPrefixOf_iff_prefix.mpr (Text.prefix_iff.mpr ⟨rest, led⟩))
    constructor
    · exact fun same => .inr ⟨none, same⟩
    · rintro (led | ⟨_, same⟩)
      · exact absurd led (none key)
      · exact same

theorem keyOf_eq_some_iff {r : Request} {key : String} : keyOf r = some key ↔ Presents r key := by
  have first (value : String) : (r.header? "x-api-key" <|> r.header? "authorization") = some value ↔
      r.header? "x-api-key" = some value ∨
        (r.header? "x-api-key" = none ∧ r.header? "authorization" = some value) := by
    cases r.header? "x-api-key" <;> simp
  rw [keyOf, Option.map_eq_some_iff, Presents]
  refine exists_congr fun value => ?_
  rw [Option.filter_eq_some_iff, first, bareKey_eq_iff, and_assoc]

instance (r : Request) (key : String) : Decidable (Presents r key) :=
  decidable_of_iff _ keyOf_eq_some_iff

/-- The request is for a route that asks for a key. One for the options of a path reaches none. -/
def Guarded (r : Request) : Prop :=
  r.method ≠ "OPTIONS" ∧ ∃ route ∈ Route.ofPath r.path, route.isProtected = true

instance (r : Request) : Decidable (Guarded r) := instDecidableAnd

structure SameBooks (s s' : Server) : Prop where
  settings : s'.settings = s.settings
  budgets : s'.budgets = s.budgets

theorem SameBooks.refl (s : Server) : s.SameBooks s := ⟨rfl, rfl⟩

section

variable {s : Server} {now : Nat} {r : Request}

theorem sameBooks_publish (s : Server) (nanos : Nat) (p : Publication) :
    s.SameBooks (s.publish nanos p).1 := by
  rw [publish]
  dsimp only
  split <;> exact ⟨rfl, rfl⟩

theorem sameBooks_openSocket (s : Server) (now : Nat) (kind : Topic.Kind) (resource : String)
    (user? : Option String) : s.SameBooks (s.openSocket now kind resource user?).1 := by
  unfold openSocket
  split
  · exact .refl s
  · split
    · exact .refl s
    · dsimp only
      split <;> exact ⟨rfl, rfl⟩

theorem sameBooks_answerPublish (s : Server) (r : Request) :
    s.SameBooks (s.answerPublish r).1 := by
  unfold answerPublish
  split
  · exact .refl s
  · exact s.sameBooks_publish 0 _

theorem sameBooks_answerSocket (s : Server) (now : Nat) (kind : Topic.Kind) (resource : String)
    (r : Request) : s.SameBooks (s.answerSocket now kind resource r).1 := by
  unfold answerSocket
  split
  · exact .refl s
  · split
    · exact .refl s
    · exact s.sameBooks_openSocket now kind _ _

theorem sameBooks_answerRoute (s : Server) (now : Nat) (r : Request) (route : Route) :
    s.SameBooks (s.answerRoute now r route).1 := by
  cases route with
  | publish => exact s.sameBooks_answerPublish r
  | socket kind resource => exact s.sameBooks_answerSocket now kind resource r
  | _ => exact .refl s

theorem sameBooks_closeSocket (s : Server) (id : Nat) : s.SameBooks (s.closeSocket id) := by
  unfold closeSocket
  split
  · exact .refl s
  · exact ⟨rfl, rfl⟩

theorem sameBooks_readSocket (s : Server) (id : Nat) : s.SameBooks (s.readSocket id).1 := by
  unfold readSocket
  split
  · exact .refl s
  · split
    · exact .refl s
    · exact ⟨rfl, rfl⟩

theorem fst_answer (s : Server) (now : Nat) (other : r.method ≠ "OPTIONS") :
    (s.answer now r).1 = (s.answerPath now r).1 := by
  rw [answer, if_neg other]
  rcases s.answerPath now r with ⟨s', reply | session⟩ <;> rfl

/-- Only the key of a guarded request is looked at. -/
theorem sameBooks_answer (s : Server) (now : Nat) (r : Request) :
    (if Guarded r then (s.authorize now r).1 else s).SameBooks (s.answer now r).1 := by
  by_cases other : r.method = "OPTIONS"
  · rw [if_neg (fun guarded => guarded.1 other), answer, if_pos other]
    exact .refl s
  · rw [fst_answer s now other, answerPath]
    cases found : Route.ofPath r.path with
    | none =>
      rw [if_neg (fun guarded => by simp [Guarded, found] at guarded)]
      exact .refl s
    | some route =>
      have asks : Guarded r ↔ route.isProtected = true := by simp [Guarded, found, other]
      have books : (if Guarded r then (s.authorize now r).1 else s) =
          (if route.isProtected then s.authorize now r else (s, .ok ())).1 := by
        by_cases guarded : route.isProtected = true
        · rw [if_pos guarded, if_pos (asks.mpr guarded)]
        · rw [if_neg guarded, if_neg (mt asks.mp guarded)]
      rw [books]
      dsimp only
      rcases (if route.isProtected then s.authorize now r else (s, .ok ())) with ⟨between, passed⟩
      cases passed with
      | error fault => exact .refl between
      | ok _ =>
        dsimp only
        split
        · exact between.sameBooks_answerRoute now r route
        · exact .refl between

theorem isKey_iff {key : String} : s.isKey key = true ↔ key ∈ s.settings.keys :=
  List.contains_iff_mem

theorem authorize_unknown (s : Server) (now : Nat)
    (unknown : ∀ key ∈ s.settings.keys, ¬Presents r key) :
    ∃ reason, s.authorize now r = (s, .error (.authentication reason)) := by
  unfold authorize
  split
  · exact ⟨_, rfl⟩
  · rename_i key found
    have foreign : ¬s.isKey key = true := fun known =>
      unknown key (isKey_iff.mp known) (keyOf_eq_some_iff.mp found)
    rw [if_neg foreign]
    exact ⟨_, rfl⟩

theorem authorize_known (s : Server) (now : Nat) {key : String} (known : key ∈ s.settings.keys)
    (presents : Presents r key) :
    s.authorize now r = ((s.spend now key).1,
      if (s.spend now key).2 then .ok () else .error .tooManyRequests) := by
  rw [authorize, keyOf_eq_some_iff.mpr presents]
  dsimp only
  rw [if_pos (isKey_iff.mpr known)]

/-- A request that does not pass is answered with the fault. -/
theorem answer_of_fault (guarded : Guarded r) {between : Server} {fault : Fault}
    (refused : s.authorize now r = (between, .error fault)) :
    ∃ reply, s.answer now r = (between, .reply reply) ∧ reply.status = fault.status := by
  obtain ⟨other, route, found, asks⟩ := guarded
  have path : s.answerPath now r = (between, .reply (faultReply fault)) := by
    rw [answerPath, found]
    dsimp only
    rw [if_pos asks, refused]
  refine ⟨between.finish r (faultReply fault), ?_, rfl⟩
  rw [answer, if_neg other, path]

def passing : List Nat := [200, 400, 405, 413, 415, 422]

theorem passing_publish {nanos : Nat} {p : Publication} {fault : Fault}
    (fails : (s.publish nanos p).2 = .error fault) : fault.status ∈ passing := by
  rw [publish] at fails
  dsimp only at fails
  split at fails
  · cases fails
    rename_i failure _
    cases failure <;> simp [Fault.status, passing]
  · cases fails

theorem passing_readPublication {rejection : Rejection}
    (fails : s.readPublication r = .error rejection) : rejection.status ∈ passing := by
  unfold readPublication at fails
  split at fails
  · cases fails
    decide
  · split at fails
    · cases fails
      decide
    · cases read : Publication.shape.decode r.body with
      | error fault =>
        rw [read] at fails
        cases fails
        rw [Rejection.status]
        split <;> decide
      | ok publication =>
        rw [read] at fails
        cases fails

theorem passing_answerPublish (s : Server) (r : Request) :
    (s.answerPublish r).2.status ∈ passing := by
  unfold answerPublish
  cases read : s.readPublication r with
  | error rejection => exact passing_readPublication read
  | ok publication =>
    dsimp only
    cases told : (s.publish 0 publication).2 with
    | error fault => exact passing_publish told
    | ok receipt => exact List.mem_cons_self

theorem answer_of_passed (guarded : Guarded r) {between : Server}
    (passed : s.authorize now r = (between, .ok ())) :
    ∃ s' reply, s.answer now r = (s', .reply reply) ∧ reply.status ∈ passing := by
  obtain ⟨other, route, found, asks⟩ := guarded
  have path : s.answerPath now r =
      if route.accepts r.method then between.answerRoute now r route
      else (between, .reply (.empty 405)) := by
    rw [answerPath, found]
    dsimp only
    rw [if_pos asks, passed]
  have replied : ∃ s' reply, s.answerPath now r = (s', .reply reply) ∧
      reply.status ∈ passing := by
    rw [path]
    split
    · cases route with
      | publish => exact ⟨_, _, rfl, between.passing_answerPublish r⟩
      | stats => exact ⟨_, _, rfl, List.mem_cons_self⟩
      | _ => cases asks
    · exact ⟨_, _, rfl, by decide⟩
  obtain ⟨s', reply, told, status⟩ := replied
  refine ⟨s', s'.finish r reply, ?_, status⟩
  rw [answer, if_neg other, told]

end

end Server

end NotificationRelay
