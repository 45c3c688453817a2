import Mathlib.Data.List.TakeWhile
import NotificationRelay.Yaml.Token

/-! Scalars of one line. A text between quotes, in which the quotes and what they take for their own
are marked, is read as that text, and a name in front of a colon is read as it stands. -/
namespace NotificationRelay.Yaml

theorem eq_of_isBlank {a : Char} (blank : isBlank a) : a = ' ' ∨ a = '\t' := by
  simpa [isBlank] using blank

/-- The cursor stands within a line, where no mark of a document can be. -/
structure Cursor.Within (c : Cursor) (rest : List Char) : Prop where
  rest : c.rest = rest
  inside : 0 < c.column

section

variable {c : Cursor} {a b : Char} {rest : List Char}

theorem Cursor.within_next (here : c.rest = a :: rest) (goesOn : isBreak a = false) :
    c.next.Within rest := by
  unfold Cursor.next
  rw [here]
  dsimp only
  rw [goesOn, if_neg Bool.false_ne_true]
  exact ⟨rfl, Nat.succ_pos _⟩

theorem Cursor.within_skip (here : c.rest = a :: b :: rest) (goesOn : isBreak a = false)
    (further : isBreak b = false) : (c.skip 2).Within rest :=
  within_next (within_next here goesOn).rest further

theorem Cursor.Within.no_mark (within : c.Within rest) : c.isDocumentMark = false := by
  have inside : ¬c.column = 0 := Nat.ne_of_gt within.inside
  simp [isDocumentMark, isMark, inside]

theorem Cursor.isAt_eq (here : c.rest = a :: rest) : c.isAt b = decide (a = b) := by
  rw [isAt, holdsAt, here]
  rfl

end

def quoteOf (single : Bool) : Char := if single then '\'' else '"'

/-- A quote is doubled between single quotes; between others a backslash marks what they take for
their own. -/
def quotedChar (single : Bool) (a : Char) : List Char :=
  if single then if a = '\'' then ['\'', '\''] else [a]
  else if a = '"' ∨ a = '\\' then ['\\', a] else [a]

def quoted (single : Bool) (text : List Char) : List Char := text.flatMap (quotedChar single)

def IsSolid (a : Char) : Prop := isBlank a = false ∧ isBreak a = false

section

variable {single : Bool} {fuel : Nat} {c : Cursor} {a : Char} {rest : List Char}

theorem quoteOf_solid (single : Bool) : IsSolid (quoteOf single) := by
  cases single <;> exact ⟨rfl, rfl⟩

/-- What ends the characters between white space: a blank, or a quote that is not doubled. -/
def EndsChunk (single : Bool) (rest : List Char) : Prop :=
  ∃ a more, rest = a :: more ∧
    (isBlank a ∨ a = quoteOf single ∧ (single → more.head? ≠ some '\''))

theorem readQuotedChunk_end (ends : EndsChunk single rest) (here : c.rest = rest) :
    readQuotedChunk single (fuel + 1) c = some ([], false, c) := by
  obtain ⟨a, more, rfl, blank | ⟨rfl, lone⟩⟩ := ends
  · simp [readQuotedChunk, here, blank]
  · cases single with
    | false => simp [readQuotedChunk, here, quoteOf, isBlank, isBreak]
    | true =>
      have other : c.holdsAt 1 (· = '\'') = false := by
        have other := lone rfl
        cases more with
        | nil => simp [Cursor.holdsAt, here]
        | cons next more => simpa [Cursor.holdsAt, here] using other
      simp [readQuotedChunk, here, quoteOf, isBlank, isBreak, other]

theorem readEscape_self (here : c.rest = '\\' :: a :: rest) (marked : a = '"' ∨ a = '\\') :
    readEscape c = some (a, c.skip 2) := by
  unfold readEscape
  rw [here]
  obtain rfl | rfl := marked <;> rfl

theorem readQuotedChunk_char (fuel : Nat) (solid : IsSolid a)
    (here : c.rest = quotedChar single a ++ rest) :
    ∃ next, next.Within rest ∧ readQuotedChunk single (fuel + 1) c =
      (readQuotedChunk single fuel next).map fun read => (a :: read.1, read.2) := by
  obtain ⟨noBlank, noBreak⟩ := solid
  unfold quotedChar at here
  split at here
  · next isSingle =>
    subst isSingle
    split at here
    · next quote =>
      subst quote
      refine ⟨c.skip 2, Cursor.within_skip here noBreak noBreak, ?_⟩
      simp [readQuotedChunk, here, Cursor.holdsAt, isBlank, isBreak]
    · next other =>
      refine ⟨c.next, Cursor.within_next here noBreak, ?_⟩
      simp [readQuotedChunk, here, noBlank, noBreak, other]
  · next isDouble =>
    obtain rfl := Bool.eq_false_iff.mpr isDouble
    split at here
    · next marked =>
      refine ⟨c.skip 2, Cursor.within_skip here rfl noBreak, ?_⟩
      have goesOn : c.holdsAt 1 isBreak = false := by simp [Cursor.holdsAt, here, noBreak]
      have step : readQuotedChunk false (fuel + 1) c = (readEscape c).bind fun escaped =>
          (readQuotedChunk false fuel escaped.2).bind fun read =>
            some (escaped.1 :: read.1, read.2) := by
        rw [readQuotedChunk, here]
        simp [goesOn, isBlank, isBreak]
      rw [step, readEscape_self here marked, Option.map_eq_bind]
      rfl
    · next other =>
      refine ⟨c.next, Cursor.within_next here noBreak, ?_⟩
      obtain ⟨notQuote, notMark⟩ := not_or.mp other
      simp [readQuotedChunk, here, noBlank, noBreak, notQuote, notMark]

/-- Between white space the characters are read one by one. -/
theorem readQuotedChunk_quoted {chunk : List Char} (solid : ∀ a ∈ chunk, IsSolid a)
    (ends : EndsChunk single rest) (within : c.Within (quoted single chunk ++ rest))
    (enough : chunk.length < fuel) :
    ∃ after, readQuotedChunk single fuel c = some (chunk, false, after) ∧ after.Within rest := by
  induction chunk generalizing fuel c with
  | nil =>
    obtain ⟨fuel, rfl⟩ := Nat.exists_eq_succ_of_ne_zero (Nat.ne_of_gt enough)
    exact ⟨c, readQuotedChunk_end ends within.rest, within⟩
  | cons a chunk ih =>
    obtain ⟨fuel, rfl⟩ := Nat.exists_eq_succ_of_ne_zero (Nat.ne_of_gt (Nat.zero_lt_of_lt enough))
    obtain ⟨first, later⟩ := List.forall_mem_cons.mp solid
    have here : c.rest = quotedChar single a ++ (quoted single chunk ++ rest) := by
      rw [within.rest, quoted, List.flatMap_cons, List.append_assoc, quoted]
    obtain ⟨next, there, step⟩ := readQuotedChunk_char fuel first here
    obtain ⟨after, read, behind⟩ := ih later there (Nat.lt_of_succ_lt_succ enough)
    exact ⟨after, by rw [step, read]; rfl, behind⟩

theorem readGap_blanks {blanks : List Char} (gap : Gap) (white : ∀ a ∈ blanks, isBlank a)
    (solid : ∃ a more, rest = a :: more ∧ IsSolid a) (within : c.Within (blanks ++ rest))
    (enough : blanks.length < fuel) :
    ∃ after, readGap none false fuel c gap =
      some ({ gap with blanks := gap.blanks ++ blanks }, false, after) ∧ after.Within rest := by
  induction blanks generalizing fuel c gap with
  | nil =>
    obtain ⟨fuel, rfl⟩ := Nat.exists_eq_succ_of_ne_zero (Nat.ne_of_gt enough)
    obtain ⟨a, more, rfl, noBlank, noBreak⟩ := solid
    refine ⟨c, ?_, within⟩
    simp [readGap, within.rest, noBlank, noBreak]
  | cons a blanks ih =>
    obtain ⟨fuel, rfl⟩ := Nat.exists_eq_succ_of_ne_zero (Nat.ne_of_gt (Nat.zero_lt_of_lt enough))
    obtain ⟨blank, later⟩ := List.forall_mem_cons.mp white
    have goesOn : isBreak a = false := by
      obtain rfl | rfl := eq_of_isBlank blank <;> rfl
    obtain ⟨after, read, behind⟩ := ih { gap with blanks := gap.blanks ++ [a] } later
      (Cursor.within_next within.rest goesOn) (Nat.lt_of_succ_lt_succ enough)
    refine ⟨after, ?_, behind⟩
    rw [readGap, within.rest]
    simpa [blank] using read

theorem quoted_blanks {blanks : List Char} (white : ∀ a ∈ blanks, isBlank a) :
    quoted single blanks = blanks := by
  induction blanks with
  | nil => rfl
  | cons a blanks ih =>
    obtain ⟨blank, later⟩ := List.forall_mem_cons.mp white
    have same : quotedChar single a = [a] := by
      obtain rfl | rfl := eq_of_isBlank blank <;> cases single <;> rfl
    rw [quoted, List.flatMap_cons, same, ← quoted, ih later]
    rfl

theorem quoted_append (text more : List Char) :
    quoted single (text ++ more) = quoted single text ++ quoted single more :=
  List.flatMap_append

theorem exists_split (p : Char → Bool) (text : List Char) :
    ∃ front tail, text = front ++ tail ∧ (∀ a ∈ front, p a) ∧ ∀ a ∈ tail.head?, p a = false := by
  refine ⟨text.takeWhile p, text.dropWhile p, List.takeWhile_append_dropWhile.symm,
    fun a => List.mem_takeWhile_imp, fun a first => ?_⟩
  have stop := List.head?_dropWhile_not p text
  rwa [Option.mem_def.mp first] at stop

/-- A text starts between quotes as it does without them, or with a mark. -/
theorem quoted_solid {text : List Char} (oneLine : ∀ a ∈ text, isBreak a = false)
    (solid : ∀ a ∈ text.head?, isBlank a = false) (rest : List Char) :
    ∃ first more, quoted single text ++ quoteOf single :: rest = first :: more ∧
      IsSolid first := by
  cases text with
  | nil => exact ⟨_, _, rfl, quoteOf_solid single⟩
  | cons a text =>
    have same : IsSolid a := ⟨solid a rfl, oneLine a List.mem_cons_self⟩
    have led : ∃ first more, quotedChar single a = first :: more ∧ IsSolid first := by
      unfold quotedChar
      split
      · split
        · next quote => exact ⟨_, _, rfl, quote ▸ same⟩
        · exact ⟨a, _, rfl, same⟩
      · split
        · exact ⟨_, _, rfl, rfl, rfl⟩
        · exact ⟨a, _, rfl, same⟩
    obtain ⟨first, more, starts, here⟩ := led
    exact ⟨first, more ++ quoted single text ++ quoteOf single :: rest,
      by simp [quoted, starts], here⟩

theorem length_le_quoted (single : Bool) (text : List Char) :
    text.length ≤ (quoted single text).length := by
  have first (a : Char) : 1 ≤ (quotedChar single a).length := by
    unfold quotedChar
    split <;> split <;> simp
  induction text with
  | nil => exact Nat.le_refl 0
  | cons a text ih =>
    have marked := first a
    rw [quoted, List.flatMap_cons, List.length_append, ← quoted, List.length_cons]
    omega

/-- A text of one line is read back from between its quotes. -/
theorem readQuoted_quoted {text : List Char} (oneLine : ∀ a ∈ text, isBreak a = false)
    (lone : single → rest.head? ≠ some '\'')
    (within : c.Within (quoted single text ++ quoteOf single :: rest))
    (enough : text.length < fuel) :
    ∃ after, readQuoted single fuel c = some (text, after) ∧ after.Within rest := by
  induction fuel generalizing text c with
  | zero => exact absurd enough (Nat.not_lt_zero _)
  | succ fuel ih =>
    have more : c.atEnd = false := by
      rw [Cursor.atEnd, within.rest]
      simp
    obtain ⟨chunk, tail, rfl, solid, stops⟩ := exists_split (!isBlank ·) text
    obtain ⟨oneLine, later⟩ := List.forall_mem_append.mp oneLine
    have solid (a : Char) (among : a ∈ chunk) : IsSolid a :=
      ⟨by simpa using solid a among, oneLine a among⟩
    rw [quoted_append, List.append_assoc] at within
    have reach : chunk.length < c.rest.length + 1 := by
      have longer := length_le_quoted single chunk
      rw [within.rest, List.length_append]
      omega
    rw [readQuoted, within.no_mark, more]
    obtain ⟨-, quoteNoBreak⟩ := quoteOf_solid single
    cases tail with
    | nil =>
      obtain ⟨after, read, there⟩ := readQuotedChunk_quoted solid
        ⟨_, rest, rfl, .inr ⟨rfl, lone⟩⟩ within reach
      refine ⟨after.next, ?_, Cursor.within_next there.rest quoteNoBreak⟩
      have closed : after.isAt (if single then '\'' else '"') = true := by
        rw [Cursor.isAt_eq there.rest]
        exact decide_eq_true rfl
      rw [read, List.append_nil]
      simp [closed]
    | cons blank tail =>
      have white : isBlank blank = true := by simpa using stops blank rfl
      -- blanks are kept as they are, and reading starts again behind them
      obtain ⟨blanks, others, split, allWhite, solidAgain⟩ := exists_split isBlank tail
      obtain rfl := split
      have unchanged : quoted single (blank :: (blanks ++ others)) =
          blank :: blanks ++ quoted single others := by
        rw [← List.cons_append, quoted_append,
          quoted_blanks (List.forall_mem_cons.mpr ⟨white, allWhite⟩)]
      rw [unchanged, List.append_assoc] at within
      have ends : EndsChunk single
          (blank :: blanks ++ (quoted single others ++ quoteOf single :: rest)) :=
        ⟨blank, _, rfl, .inl white⟩
      obtain ⟨after, read, there⟩ := readQuotedChunk_quoted solid ends within reach
      have notClosed : after.isAt (if single then '\'' else '"') = false := by
        rw [Cursor.isAt_eq there.rest]
        refine decide_eq_false fun same => ?_
        rw [same] at white
        exact absurd white (by cases single <;> decide)
      have goesOn : ∀ a ∈ others, isBreak a = false := fun a among =>
        later a (List.mem_cons_of_mem _ (List.mem_append_right _ among))
      have room : (blank :: blanks).length < after.rest.length + 1 := by
        rw [there.rest, List.length_append]
        omega
      obtain ⟨next, gap, behind⟩ := readGap_blanks Gap.none
        (List.forall_mem_cons.mpr ⟨white, allWhite⟩) (quoted_solid goesOn solidAgain rest) there
        room
      obtain ⟨last, restRead, done⟩ := ih goesOn behind (by
        simp only [List.length_append, List.length_cons] at enough
        omega)
      refine ⟨last, ?_, done⟩
      have kept : Gap.folded { Gap.none with blanks := Gap.none.blanks ++ blank :: blanks } =
          blank :: blanks := rfl
      rw [read]
      simp [notClosed, gap, restRead, kept]

end

section

variable {a : Char} {c : Cursor} {name rest : List Char} {fuel : Nat}

theorem solid_of_isNameChar (named : isNameChar a) : IsSolid a := by
  have apart {p : Bool} (other : p → ¬isNameChar a) : p = false :=
    Bool.eq_false_iff.mpr fun holds => other holds named
  have ofNat {n : Nat} (same : a.toNat = n) : a = Char.ofNat n := by
    rw [← same, Char.ofNat_toNat]
  refine ⟨apart fun blank => ?_, apart fun goesOn => ?_⟩
  · obtain rfl | rfl := eq_of_isBlank blank <;> decide
  · obtain rfl | other : a = '\n' ∨ a.toNat = 0x2028 ∨ a.toNat = 0x2029 := by
      simpa [isBreak, or_assoc] using goesOn
    · decide
    · obtain same | same := other
      all_goals
        rw [ofNat same]
        decide

theorem endsPlain_name (flow : Bool) (named : isNameChar a) (here : c.rest = a :: rest) :
    isStrayColon flow c = false ∧ endsPlain flow c = false := by
  obtain ⟨noBlank, noBreak⟩ := solid_of_isNameChar named
  have other {b : Char} (mark : isNameChar b = false) : a ≠ b := by
    rintro rfl
    exact absurd named (Bool.eq_false_iff.mp mark)
  have colon : a ≠ ':' := other (by decide)
  have indicators : ",[]\x7b\x7d".toList.contains a = false := by
    simp [other (b := ',') (by decide), other (b := '[') (by decide), other (b := ']') (by decide),
      other (b := '\x7b') (by decide), other (b := '\x7d') (by decide)]
  constructor
  · simp [isStrayColon, Cursor.isAt_eq here, colon]
  · simp only [endsPlain, here, noBlank, noBreak, colon, indicators]
    simp

/-- A colon ends a name if a blank, a line break or nothing follows. -/
theorem readChunk_name (flow : Bool) (named : ∀ a ∈ name, isNameChar a)
    (stops : ∀ a ∈ rest.head?, isBlank a || isBreak a) (here : c.rest = name ++ ':' :: rest)
    (enough : name.length < fuel) :
    ∃ after, readChunk flow fuel c = some (name, after) ∧ after.rest = ':' :: rest := by
  induction name generalizing fuel c with
  | nil =>
    obtain ⟨fuel, rfl⟩ := Nat.exists_eq_succ_of_ne_zero (Nat.ne_of_gt enough)
    refine ⟨c, ?_, here⟩
    have stray : isStrayColon flow c = false := by
      cases rest with
      | nil => simp [isStrayColon, Cursor.holdsAt, here]
      | cons a rest =>
        have solid : (",?[]\x7b\x7d".toList.all fun b => !(isBlank b || isBreak b)) = true := rfl
        have other : ",?[]\x7b\x7d".toList.contains a = false := by
          refine Bool.eq_false_iff.mpr fun among => ?_
          have apart := List.all_eq_true.mp solid a (List.contains_iff_mem.mp among)
          rw [stops a rfl] at apart
          cases apart
        have next : c.holdsAt 1 (fun a => ",?[]\x7b\x7d".toList.contains a) = false := by
          rw [Cursor.holdsAt, here]
          exact other
        rw [isStrayColon, next, Bool.and_false]
    have ends : endsPlain flow c = true := by
      cases rest with
      | nil => simp [endsPlain, Cursor.endsAt, here]
      | cons a rest => simp [endsPlain, Cursor.endsAt, here, stops a rfl]
    rw [readChunk, stray, ends]
    rfl
  | cons a name ih =>
    obtain ⟨fuel, rfl⟩ := Nat.exists_eq_succ_of_ne_zero (Nat.ne_of_gt (Nat.zero_lt_of_lt enough))
    obtain ⟨first, later⟩ := List.forall_mem_cons.mp named
    obtain ⟨stray, goesOn⟩ := endsPlain_name flow first here
    have next : c.next.rest = name ++ ':' :: rest := by
      rw [Cursor.rest_next, here]
      rfl
    obtain ⟨after, read, behind⟩ := ih later next (Nat.lt_of_succ_lt_succ enough)
    refine ⟨after, ?_, behind⟩
    rw [readChunk, stray, goesOn, here]
    simp [read]

theorem no_mark_of_name (named : ∀ a ∈ name, isNameChar a) (here : c.rest = name ++ ':' :: rest)
    {m : Char} (other : m ≠ ':') : c.isMark m = false := by
  refine Bool.eq_false_iff.mpr fun mark => ?_
  simp only [Cursor.isMark, Cursor.endsAt, here, Bool.and_eq_true, decide_eq_true_eq] at mark
  obtain ⟨⟨-, three⟩, ends⟩ := mark
  rcases name with _ | ⟨a, _ | ⟨b, _ | ⟨d, name⟩⟩⟩
  · simp [other.symm] at three
  · simp [other.symm] at three
  · simp [other.symm] at three
  · cases name with
    | nil => simp [isBlank, isBreak] at ends
    | cons e name =>
      obtain ⟨noBlank, noBreak⟩ := solid_of_isNameChar (named e (by simp))
      simp [noBlank, noBreak] at ends

/-- A name in front of a colon is read as it stands. -/
theorem readPlain_name (flow : Bool) (indent fuel : Nat) (named : ∀ a ∈ name, isNameChar a)
    (some : name ≠ []) (stops : ∀ a ∈ rest.head?, isBlank a || isBreak a)
    (here : c.rest = name ++ ':' :: rest) :
    ∃ after, readPlain flow indent (fuel + 1) c Gap.none false = .some (name, false, after) ∧
      after.rest = ':' :: rest := by
  have enough : name.length < c.rest.length + 1 := by
    rw [here, List.length_append]
    omega
  obtain ⟨after, read, behind⟩ := readChunk_name flow named stops here enough
  refine ⟨after, ?_, behind⟩
  have noMark : c.isDocumentMark = false := by
    rw [Cursor.isDocumentMark, no_mark_of_name named here (by decide),
      no_mark_of_name named here (by decide)]
    rfl
  have noComment : c.isAt '#' = false := by
    obtain ⟨a, name, rfl⟩ := List.exists_cons_of_ne_nil some
    rw [Cursor.isAt_eq here]
    refine decide_eq_false fun same => ?_
    exact absurd (same ▸ named a List.mem_cons_self) (by decide)
  have colon : (after.holdsAt 0 fun a => isBlank a || isBreak a) = false := by
    rw [Cursor.holdsAt, behind]
    rfl
  rw [readPlain, noMark, noComment, read]
  simp [colon, some, Gap.folded, Gap.none]

end

namespace Lexer

variable {l marked : Lexer} {rest : List Char}

theorem cursor_of_markCandidate (mark : l.markCandidate = some marked) :
    marked.cursor = l.cursor ∧ marked.tokens = l.tokens := by
  unfold markCandidate dropCandidate at mark
  split at mark
  · split at mark
    · cases mark
    · cases mark
      exact ⟨rfl, rfl⟩
  · cases mark
    exact ⟨rfl, rfl⟩

/-- The token of a text between quotes is the scalar that holds the text. -/
theorem readToken_quoted {single : Bool} {text : List Char}
    (mark : l.markCandidate = some marked) (oneLine : ∀ a ∈ text, isBreak a = false)
    (lone : single → rest.head? ≠ some '\'')
    (here : l.cursor.rest = quoteOf single :: (quoted single text ++ quoteOf single :: rest)) :
    ∃ l', l.readToken (quoteOf single) = some l' ∧
      l'.tokens = l.tokens.push (.scalar .quoted (String.ofList text)) ∧ l'.cursor.rest = rest := by
  obtain ⟨sameCursor, sameTokens⟩ := cursor_of_markCandidate mark
  have noMark {m : Char} (other : quoteOf single ≠ m) : l.cursor.isMark m = false := by
    simp [Cursor.isMark, here, other]
  have chosen : l.readToken (quoteOf single) = l.readQuotedScalar single := by
    cases single <;>
      simp [readToken, noMark (m := '-') (by decide), noMark (m := '.') (by decide), quoteOf]
  have within := Cursor.within_next here (quoteOf_solid single).2
  have enough : text.length < l.cursor.next.rest.length + 1 := by
    have longer := length_le_quoted single text
    rw [within.rest, List.length_append]
    omega
  obtain ⟨after, read, behind⟩ := readQuoted_quoted oneLine lone within enough
  rw [chosen, readQuotedScalar, mark]
  simp only [Option.bind_eq_bind, Option.bind_some, sameCursor, read]
  exact ⟨_, rfl, by simp [emit, allow, sameTokens], behind.rest⟩

theorem readPlainScalar_name {name : List Char} (mark : l.markCandidate = some marked)
    (named : ∀ a ∈ name, isNameChar a) (some : name ≠ [])
    (stops : ∀ a ∈ rest.head?, isBlank a || isBreak a)
    (here : l.cursor.rest = name ++ ':' :: rest) :
    ∃ l', l.readPlainScalar = .some l' ∧
      l'.tokens = l.tokens.push (.scalar .plain (String.ofList name)) ∧
      l'.cursor.rest = ':' :: rest := by
  obtain ⟨sameCursor, sameTokens⟩ := cursor_of_markCandidate mark
  obtain ⟨after, read, behind⟩ := readPlain_name marked.inFlow (marked.indent + 1).toNat
    l.cursor.rest.length named some stops here
  rw [readPlainScalar, mark]
  simp only [Option.bind_eq_bind, Option.bind_some, sameCursor, read]
  exact ⟨_, rfl, by simp [emit, allow, sameTokens], behind⟩

end Lexer

end NotificationRelay.Yaml
