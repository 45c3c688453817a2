import Mathlib.Data.List.TakeWhile
import NotificationRelay.Yaml.Token

/-! The layout of YAML. Blocks are told by indentation alone, and yet every token that starts a block
has one that ends it, unless a flow collection stays open. -/
namespace NotificationRelay.Yaml

namespace Token

def opensBlock : Token → Bool
  | .blockSequence | .blockMapping => true
  | _ => false

def flowAfter (depth : Nat) : Token → Nat
  | .flowSequence | .flowMapping => depth + 1
  | .flowSequenceEnd | .flowMappingEnd => depth - 1
  | _ => depth

def flowDepth (tokens : List Token) : Nat := tokens.foldl flowAfter 0

/-- Tokens that neither start nor end anything. -/
def isInner (t : Token) : Bool :=
  !t.opensBlock && t ≠ .blockEnd && flowAfter 0 t = 0 && flowAfter 1 t = 1

theorem flowDepth_insertIdx {t : Token} (neutral : ∀ depth, flowAfter depth t = depth)
    (tokens : List Token) (n : Nat) : flowDepth (tokens.insertIdx n t) = flowDepth tokens := by
  unfold flowDepth
  generalize 0 = depth
  induction n generalizing tokens depth with
  | zero => rw [List.insertIdx_zero, List.foldl_cons, neutral]
  | succ n ih =>
    cases tokens with
    | nil => rfl
    | cons first rest => rw [List.insertIdx_succ_cons, List.foldl_cons, List.foldl_cons, ih]

theorem flowAfter_inner {t : Token} (inner : t.isInner) (depth : Nat) :
    flowAfter depth t = depth := by
  unfold flowAfter
  split
  case h_5 => rfl
  all_goals cases inner

end Token

namespace Lexer

open Token

/-- What holds of a lexer between two tokens: the blocks that have been started and not ended are
the open ones, whose columns ascend, and a key would go among the tokens that there are. -/
structure Sound (l : Lexer) : Prop where
  blocks : l.tokens.toList.countP opensBlock =
    l.tokens.toList.count .blockEnd + l.indents.length
  columns : l.indents.Pairwise (· > ·)
  flows : flowDepth l.tokens.toList = l.enclosing.length
  within : ∀ c, some c ∈ l.candidate :: l.enclosing → c.tokens ≤ l.tokens.size

variable {l l' : Lexer} {t : Token}

theorem sound_start (text : List Char) : (Lexer.start text).Sound where
  blocks := rfl
  columns := .nil
  flows := rfl
  within c among := by simp [start] at among

theorem Sound.move (sound : l.Sound) (cursor : Cursor) (allowed : Bool) :
    { l with cursor, allowed }.Sound :=
  ⟨sound.blocks, sound.columns, sound.flows, sound.within⟩

theorem Sound.append (sound : l.Sound) (tokens : List Token) (indents : List Nat)
    (enclosing : List (Option Candidate)) (candidate : Option Candidate)
    (blocks : tokens.countP opensBlock + l.indents.length =
      tokens.count .blockEnd + indents.length)
    (columns : indents.Sublist l.indents)
    (flows : tokens.foldl flowAfter l.enclosing.length = enclosing.length)
    (within : ∀ c, some c ∈ candidate :: enclosing → some c ∈ l.candidate :: l.enclosing) :
    { l with tokens := l.tokens ++ tokens.toArray, indents, enclosing, candidate }.Sound where
  blocks := by
    have before := sound.blocks
    simp only [Array.toList_append, List.countP_append, List.count_append]
    omega
  columns := sound.columns.sublist columns
  flows := by
    have before := sound.flows
    rw [flowDepth] at before
    rw [Array.toList_append, flowDepth, List.foldl_append, before, flows]
  within c among := by
    have old := sound.within c (within c among)
    simp only [Array.size_append]
    omega

theorem Sound.emit (sound : l.Sound) (inner : t.isInner) : (l.emit t).Sound := by
  have other : opensBlock t = false ∧ t ≠ .blockEnd := by
    have parts := inner
    simp only [isInner, Bool.and_eq_true, Bool.not_eq_true', decide_eq_true_eq] at parts
    exact parts.1.1
  have appended := sound.append [t] l.indents l.enclosing l.candidate
    (by simp [other.1, other.2]) (.refl _) (flowAfter_inner inner _) fun _ => id
  simpa [Lexer.emit] using appended

theorem size_insert {tokens : Array Token} {n : Nat} (inside : n ≤ tokens.size) (t : Token) :
    (tokens.insertIdxIfInBounds n t).size = tokens.size + 1 := by
  rw [Array.insertIdxIfInBounds, dif_pos inside, Array.size_insertIdx]

theorem toList_insert {tokens : Array Token} {n : Nat} (inside : n ≤ tokens.size) (t : Token) :
    (tokens.insertIdxIfInBounds n t).toList = tokens.toList.insertIdx n t := by
  rw [Array.insertIdxIfInBounds, dif_pos inside, Array.toList_insertIdx]

theorem Sound.insertKey (sound : l.Sound) {n : Nat} (inside : n ≤ l.tokens.size) :
    { l with tokens := l.tokens.insertIdxIfInBounds n .key, candidate := none }.Sound where
  blocks := by
    have perm := List.perm_insertIdx Token.key l.tokens.toList (by simpa using inside)
    simp only [toList_insert inside, perm.countP_eq, perm.count_eq]
    simp [sound.blocks, opensBlock]
  columns := sound.columns
  flows := by
    rw [toList_insert inside, flowDepth_insertIdx fun _ => rfl]
    exact sound.flows
  within c among := by
    have old := sound.within c (List.mem_cons_of_mem _ (by simpa using among))
    exact size_insert inside .key ▸ Nat.le_succ_of_le old

theorem Sound.openBlock (sound : l.Sound) {column n : Nat} (inside : n ≤ l.tokens.size)
    (opens : t.opensBlock) : (l.openBlock column n t).Sound := by
  unfold Lexer.openBlock
  split
  · exact sound
  · next deeper =>
    refine ⟨?_, ?_, ?_, fun c among => ?_⟩
    · have perm := List.perm_insertIdx t l.tokens.toList (by simpa using inside)
      have other : t ≠ .blockEnd := by rintro rfl; cases opens
      simp only [toList_insert inside, perm.countP_eq, perm.count_eq,
        List.countP_cons_of_pos opens, List.count_cons_of_ne other, sound.blocks, List.length_cons]
      omega
    · refine List.pairwise_cons.mpr ⟨fun n among => ?_, sound.columns⟩
      have behind : l.indent < column := (by simpa using deeper : l.inFlow = false ∧ _).2
      have columns := sound.columns
      unfold Lexer.indent at behind
      cases indents : l.indents with
      | nil => simp [indents] at among
      | cons innermost others =>
        rw [indents] at among columns behind
        dsimp only at behind
        rcases List.mem_cons.mp among with rfl | outer
        · omega
        · have := (List.pairwise_cons.mp columns).1 n outer
          omega
    · have neutral (depth : Nat) : flowAfter depth t = depth := by
        unfold flowAfter
        split
        case h_5 => rfl
        all_goals cases opens
      rw [toList_insert inside, flowDepth_insertIdx neutral]
      exact sound.flows
    · exact size_insert inside t ▸ Nat.le_succ_of_le (sound.within c among)

theorem Sound.closeBlocks (sound : l.Sound) (column : Int) : (l.closeBlocks column).Sound := by
  unfold Lexer.closeBlocks
  split
  · exact sound
  · dsimp only
    generalize closed : (l.indents.takeWhile fun (n : Nat) => decide (column < n)).length = n
    have within : n ≤ l.indents.length := closed ▸ (List.takeWhile_prefix _).length_le
    have neutral (n : Nat) : (List.replicate n Token.blockEnd).foldl flowAfter l.enclosing.length =
        l.enclosing.length := by
      induction n with
      | zero => rfl
      | succ n ih => exact ih
    have ended : (List.replicate n Token.blockEnd).countP opensBlock + l.indents.length =
        (List.replicate n Token.blockEnd).count .blockEnd + (l.indents.drop n).length := by
      rw [List.countP_replicate, List.count_replicate_self, List.length_drop, if_neg (by decide)]
      omega
    have appended := sound.append _ _ l.enclosing l.candidate ended (List.drop_sublist n _)
      (neutral n) fun _ => id
    rwa [List.toArray_replicate] at appended

theorem Sound.dropCandidate (sound : l.Sound) (dropped : l.dropCandidate = some l') : l'.Sound := by
  unfold Lexer.dropCandidate at dropped
  split at dropped
  · cases dropped
  · cases dropped
    exact ⟨sound.blocks, sound.columns, sound.flows, fun c among =>
      sound.within c (List.mem_cons_of_mem _ (by simpa using among))⟩

theorem Sound.markCandidate (sound : l.Sound) (marked : l.markCandidate = some l') : l'.Sound := by
  unfold Lexer.markCandidate at marked
  split at marked
  · obtain ⟨free, dropped, same⟩ := Option.bind_eq_some_iff.mp marked
    have sound := sound.dropCandidate dropped
    cases same
    refine ⟨sound.blocks, sound.columns, sound.flows, fun c among => ?_⟩
    rcases List.mem_cons.mp among with new | old
    · cases new
      exact Nat.le_refl _
    · exact sound.within c (List.mem_cons_of_mem _ old)
  · cases marked
    exact sound

theorem Sound.dropExpired (sound : l.Sound) (dropped : l.dropExpired = some l') : l'.Sound := by
  unfold Lexer.dropExpired at dropped
  extract_lets keep at dropped
  have kept {candidate candidate' : Option Candidate} (found : keep candidate = some candidate')
      {c : Candidate} (there : candidate' = some c) : candidate = some c := by
    subst there
    simp only [keep] at found
    split at found
    · cases found
    · split at found
      · cases found
        rfl
      · split at found <;> cases found
  have all {list list' : List (Option Candidate)} (found : list.mapM keep = some list') :
      list'.length = list.length ∧ ∀ c, some c ∈ list' → some c ∈ list := by
    induction list generalizing list' with
    | nil =>
      cases found
      exact ⟨rfl, fun _ => id⟩
    | cons first rest ih =>
      rw [List.mapM_cons] at found
      obtain ⟨first', here, found⟩ := Option.bind_eq_some_iff.mp found
      obtain ⟨rest', later, same⟩ := Option.bind_eq_some_iff.mp found
      cases same
      obtain ⟨length, among⟩ := ih later
      refine ⟨congrArg (· + 1) length, fun c there => ?_⟩
      rcases List.mem_cons.mp there with new | old
      · exact List.mem_cons.mpr (.inl (kept here new.symm).symm)
      · exact List.mem_cons_of_mem _ (among c old)
  obtain ⟨candidate, here, dropped⟩ := Option.bind_eq_some_iff.mp dropped
  obtain ⟨enclosing, around, same⟩ := Option.bind_eq_some_iff.mp dropped
  cases same
  obtain ⟨length, among⟩ := all around
  refine ⟨sound.blocks, sound.columns, sound.flows.trans length.symm, fun c there => ?_⟩
  refine sound.within c ?_
  rcases List.mem_cons.mp there with new | old
  · exact List.mem_cons.mpr (.inl (kept here new.symm).symm)
  · exact List.mem_cons_of_mem _ (among c old)

theorem Sound.leaveDocument (sound : l.Sound) (left : l.leaveDocument = some l') : l'.Sound := by
  obtain ⟨closed, dropped, same⟩ := Option.bind_eq_some_iff.mp left
  cases same
  exact ((sound.closeBlocks _).dropCandidate dropped).move _ _

/-- Outside flow collections no block stays open behind a document. -/
theorem indents_of_leaveDocument (left : l.leaveDocument = some l') (outside : l'.inFlow = false) :
    l'.indents = [] := by
  obtain ⟨closed, dropped, same⟩ := Option.bind_eq_some_iff.mp left
  cases same
  unfold Lexer.dropCandidate at dropped
  split at dropped
  · cases dropped
  · cases dropped
    change (l.closeBlocks (-1)).indents = []
    unfold Lexer.closeBlocks
    split
    · next inside =>
      unfold Lexer.closeBlocks at outside
      rw [if_pos inside] at outside
      cases inside.symm.trans outside
    · have all : (l.indents.takeWhile fun (n : Nat) => decide ((-1 : Int) < n)) = l.indents :=
        List.takeWhile_eq_self_iff.mpr fun n _ => by simp; omega
      dsimp only
      rw [all, List.drop_length]

theorem Sound.skipToToken (sound : l.Sound) (fuel : Nat) : (l.skipToToken fuel).Sound := by
  induction fuel generalizing l with
  | zero => exact sound
  | succ fuel ih =>
    rw [Lexer.skipToToken]
    split <;> split
    · exact ih (sound.move _ _)
    · exact sound.move _ _
    · exact ih (sound.move _ _)
    · exact sound.move _ _

theorem Sound.take (sound : l.Sound) (inner : t.isInner) (n : Nat) : (l.take n t).Sound :=
  (sound.emit inner).move _ _

theorem sound_none : ∀ l' ∈ (none : Option Lexer), l'.Sound := nofun

theorem sound_some (sound : l.Sound) : ∀ l' ∈ some l, l'.Sound :=
  fun _ same => Option.some.inj same ▸ sound

theorem sound_bind {α : Type} {x : Option α} {f : α → Option Lexer}
    (each : ∀ a, x = some a → ∀ l' ∈ f a, l'.Sound) : ∀ l' ∈ x >>= f, l'.Sound := by
  intro l' found
  obtain ⟨a, here, found⟩ := Option.bind_eq_some_iff.mp found
  exact each a here l' found

theorem sound_ite {p : Prop} [Decidable p] {x y : Option Lexer} (yes : ∀ l' ∈ x, l'.Sound)
    (no : ∀ l' ∈ y, l'.Sound) : ∀ l' ∈ (if p then x else y), l'.Sound := by
  split
  · exact yes
  · exact no

theorem Sound.readVersion (sound : l.Sound) (c : Cursor) : ∀ l' ∈ l.readVersion c, l'.Sound := by
  refine sound_bind fun major _ => ?_
  dsimp only
  split
  · exact sound_none
  · refine sound_bind fun minor _ => sound_bind fun ending _ => ?_
    exact sound_some ((sound.emit rfl).move _ _)

theorem Sound.readTagHandle (sound : l.Sound) (c : Cursor) :
    ∀ l' ∈ l.readTagHandle c, l'.Sound := by
  refine sound_bind fun named _ => ?_
  dsimp only
  split
  · exact sound_none
  · split
    · exact sound_none
    · refine sound_bind fun start _ => ?_
      split
      · exact sound_none
      · exact sound_bind fun ending _ => sound_some ((sound.emit rfl).move _ _)

theorem Sound.readDirective (sound : l.Sound) : ∀ l' ∈ l.readDirective, l'.Sound := by
  refine sound_bind fun left ends => ?_
  have sound := sound.leaveDocument ends
  dsimp only
  split
  · exact sound_none
  · split
    · exact sound.readVersion _
    · exact sound.readTagHandle _
    · exact sound_none

theorem Sound.readMark (sound : l.Sound) (inner : t.isInner) : ∀ l' ∈ l.readMark t, l'.Sound :=
  sound_bind fun _ ends => sound_some ((sound.leaveDocument ends).take inner 3)

theorem Sound.openFlow (sound : l.Sound) (opens : t = .flowSequence ∨ t = .flowMapping) :
    ∀ l' ∈ l.openFlow t, l'.Sound := by
  refine sound_bind fun marked mark => ?_
  have sound := sound.markCandidate mark
  have opened := sound.append [t] marked.indents (marked.candidate :: marked.enclosing) none
    (by rcases opens with rfl | rfl <;> rfl) (.refl _) (by rcases opens with rfl | rfl <;> rfl)
    (fun c among => by simpa using among)
  refine sound_some ?_
  exact opened.move _ _

theorem Sound.closeFlow (sound : l.Sound) (closes : t = .flowSequenceEnd ∨ t = .flowMappingEnd) :
    ∀ l' ∈ l.closeFlow t, l'.Sound := by
  refine sound_bind fun dropped drop => ?_
  have sound := sound.dropCandidate drop
  have same : opensBlock t = false ∧ t ≠ .blockEnd ∧ ∀ depth, flowAfter depth t = depth - 1 := by
    rcases closes with rfl | rfl <;> exact ⟨rfl, nofun, fun _ => rfl⟩
  obtain ⟨starts, ends, depth⟩ := same
  dsimp only
  split
  · next none =>
    have closed := sound.append [t] dropped.indents dropped.enclosing dropped.candidate
      (by simp [starts, ends]) (.refl _) (by simp [depth, none]) fun _ => id
    exact sound_some (closed.move _ _)
  · next outer others around =>
    have closed := sound.append [t] dropped.indents others outer
      (by simp [starts, ends]) (.refl _) (by simp [depth, around])
      fun c among => List.mem_cons_of_mem _ (around ▸ among)
    exact sound_some (closed.move _ _)

theorem Sound.readFlowEntry (sound : l.Sound) : ∀ l' ∈ l.readFlowEntry, l'.Sound :=
  sound_bind fun _ drop => sound_some (((sound.dropCandidate drop).take rfl 1).move _ _)

theorem Sound.enterBlock (sound : l.Sound) (opens : t.opensBlock) :
    ∀ l' ∈ l.enterBlock t, l'.Sound := by
  unfold Lexer.enterBlock
  split
  · exact sound_some sound
  · split
    · exact sound_some (sound.openBlock (Nat.le_refl _) opens)
    · exact sound_none

theorem Sound.readBlockEntry (sound : l.Sound) : ∀ l' ∈ l.readBlockEntry, l'.Sound :=
  sound_bind fun entered enter => sound_bind fun _ drop => sound_some
    ((((sound.enterBlock rfl entered enter).dropCandidate drop).take rfl 1).move _ _)

theorem Sound.readKey (sound : l.Sound) : ∀ l' ∈ l.readKey, l'.Sound :=
  sound_bind fun entered enter => sound_bind fun _ drop => sound_some
    ((((sound.enterBlock rfl entered enter).dropCandidate drop).take rfl 1).move _ _)

theorem Sound.readValue (sound : l.Sound) : ∀ l' ∈ l.readValue, l'.Sound := by
  unfold Lexer.readValue
  split
  · next c candidate =>
    have inside : c.tokens ≤ l.tokens.size := sound.within c (candidate ▸ List.mem_cons_self)
    have keyed := sound.insertKey inside
    have still : c.tokens ≤ (l.tokens.insertIdxIfInBounds c.tokens .key).size :=
      size_insert inside .key ▸ Nat.le_succ_of_le inside
    exact sound_some (((keyed.openBlock still rfl).take rfl 1).move _ _)
  · exact sound_bind fun entered enter => sound_some
      (((sound.enterBlock rfl entered enter).take rfl 1).move _ _)

theorem Sound.readAnchor (sound : l.Sound) {t : String → Token} (inner : ∀ s, (t s).isInner) :
    ∀ l' ∈ l.readAnchor t, l'.Sound := by
  refine sound_bind fun marked mark => ?_
  dsimp only
  split
  · exact sound_none
  · exact sound_some (((sound.markCandidate mark).emit (inner _)).move _ _)

theorem Sound.readTag (sound : l.Sound) : ∀ l' ∈ l.readTag, l'.Sound := by
  refine sound_bind fun marked mark => ?_
  have sound := sound.markCandidate mark
  have tagged (handle suffix : List Char) (c : Cursor) :
      ({ (marked.emit (.tag (String.ofList handle) (String.ofList suffix))).allow false with
        cursor := c } : Lexer).Sound :=
    (sound.emit rfl).move _ _
  dsimp only
  refine sound_ite (sound_bind fun _ _ => sound_ite sound_none ?_) (sound_bind fun _ _ => ?_)
  · exact sound_ite sound_none (sound_some (tagged ..))
  · refine sound_ite (sound_bind fun _ _ => sound_ite sound_none ?_) (sound_bind fun _ _ => ?_)
    · exact sound_ite sound_none (sound_some (tagged ..))
    · exact sound_ite (sound_ite sound_none (sound_some (tagged ..)))
        (sound_ite sound_none (sound_some (tagged ..)))

theorem Sound.readBlockScalar (sound : l.Sound) (style : Style) :
    ∀ l' ∈ l.readBlockScalar style, l'.Sound :=
  sound_bind fun _ drop => sound_bind fun _ _ => sound_some
    (((sound.dropCandidate drop).emit rfl).move _ _)

theorem Sound.readQuotedScalar (sound : l.Sound) (single : Bool) :
    ∀ l' ∈ l.readQuotedScalar single, l'.Sound :=
  sound_bind fun _ mark => sound_bind fun _ _ => sound_some
    (((sound.markCandidate mark).emit rfl).move _ _)

theorem Sound.readPlainScalar (sound : l.Sound) : ∀ l' ∈ l.readPlainScalar, l'.Sound :=
  sound_bind fun _ mark => sound_bind fun _ _ => sound_some
    (((sound.markCandidate mark).emit rfl).move _ _)

theorem Sound.readToken (sound : l.Sound) (a : Char) : ∀ l' ∈ l.readToken a, l'.Sound :=
  sound_ite sound.readDirective <|
  sound_ite (sound.readMark rfl) <|
  sound_ite (sound.readMark rfl) <|
  sound_ite (sound.openFlow (.inl rfl)) <|
  sound_ite (sound.openFlow (.inr rfl)) <|
  sound_ite (sound.closeFlow (.inl rfl)) <|
  sound_ite (sound.closeFlow (.inr rfl)) <|
  sound_ite sound.readFlowEntry <|
  sound_ite sound.readBlockEntry <|
  sound_ite sound.readKey <|
  sound_ite sound.readValue <|
  sound_ite (sound.readAnchor fun _ => rfl) <|
  sound_ite (sound.readAnchor fun _ => rfl) <|
  sound_ite sound.readTag <|
  sound_ite (sound.readBlockScalar .literal) <|
  sound_ite (sound.readBlockScalar .folded) <|
  sound_ite (sound.readQuotedScalar true) <|
  sound_ite (sound.readQuotedScalar false) <|
  sound_ite sound.readPlainScalar sound_none

/-- Tokens are left by a lexer that is sound still. Its blocks are closed unless it is within a flow
collection. -/
theorem Sound.readTokens (sound : l.Sound) {fuel : Nat} {tokens : List Token}
    (read : l.readTokens fuel = some tokens) :
    ∃ last : Lexer, last.Sound ∧ last.tokens.toList = tokens ∧
      (last.inFlow = false → last.indents = []) := by
  induction fuel generalizing l with
  | zero => cases read
  | succ fuel ih =>
    rw [Lexer.readTokens] at read
    obtain ⟨kept, drop, read⟩ := Option.bind_eq_some_iff.mp read
    have sound := ((sound.skipToToken _).dropExpired drop).closeBlocks kept.cursor.column
    dsimp only at read
    split at read
    · obtain ⟨last, left, same⟩ := Option.bind_eq_some_iff.mp read
      exact ⟨last, sound.leaveDocument left, Option.some.inj same, indents_of_leaveDocument left⟩
    · obtain ⟨next, took, read⟩ := Option.bind_eq_some_iff.mp read
      exact ih (sound.readToken _ next took) read

end Lexer

/-- As many blocks are started as are ended, unless a flow collection stays open. -/
theorem Token.blocks_balanced {text : String} {tokens : List Token}
    (found : Token.ofText? text = some tokens) :
    tokens.count .blockEnd ≤ tokens.countP opensBlock ∧
      (flowDepth tokens = 0 → tokens.countP opensBlock = tokens.count .blockEnd) := by
  unfold ofText? at found
  dsimp only at found
  split at found
  · have start : (skipOrderMark (.start (unifyBreaks text.toList))).Sound := by
      unfold skipOrderMark
      split
      · exact (Lexer.sound_start _).move _ _
      · exact Lexer.sound_start _
    obtain ⟨last, sound, rfl, closed⟩ := start.readTokens found
    refine ⟨sound.blocks ▸ Nat.le_add_right .., fun flat => ?_⟩
    have outside : last.inFlow = false := by
      have none := List.length_eq_zero_iff.mp (sound.flows.symm.trans flat)
      simp [Lexer.inFlow, none]
    rw [sound.blocks, closed outside]
    rfl
  · cases found

end NotificationRelay.Yaml
