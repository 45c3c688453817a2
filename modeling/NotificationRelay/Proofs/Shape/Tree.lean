import NotificationRelay.Shape.Reader
import NotificationRelay.Proofs.Json.Skip

/-! Values of a shape in trees. What a shape reads from a text is what it finds in the tree of that
text: two readers that walk the bytes on their own agree on every value and on where it ends. -/
namespace NotificationRelay

open Json Json.Scan

namespace Json

def natural? (greatest : Nat) : Json → Option Nat
  | .number (.natural n) => if n ≤ greatest then some n else none
  | _ => none

def number? : Json → Option Number
  | .number n => some n
  | _ => none

def text? : Json → Option String
  | .text s => some s
  | _ => none

def flag? : Json → Option Bool
  | .flag b => some b
  | _ => none

def word? : Json → Option String
  | .text s => some s
  | .object [(s, .null)] => some s
  | _ => none

def optional? {α : Type} (item : Json → Option α) : Json → Option (Option α)
  | .null => some none
  | j => (item j).map some

def items? : Json → Option (List Json)
  | .list items => some items
  | _ => none

def record? {α : Type} (entries : List (String × Json) → Option α) (row : List Json → Option α) :
    Json → Option α
  | .object members => entries members
  | .list items => row items
  | _ => none

end Json

namespace Shape

mutual

/-- The value of the shape that a tree holds. -/
@[simp]
def ofJson? {α : Type} : Shape α → Json → Option α
  | .word, j => (j.natural? greatestWord).map UInt64.ofNat
  | .halfWord, j => (j.natural? (greatest 32)).map UInt32.ofNat
  | .natural _ greatest, j => j.natural? greatest
  | .real, j => j.number?.map toReal
  | .text, j => j.text?
  | .flag, j => j.flag?
  | .instant, j => j.text?.bind fun s => (Time.parseLenient s).toOption
  | .choice _, j => j.word?.bind Vocabulary.find?
  | .tree, j => some j
  | .optional shape, j => j.optional? shape.ofJson?
  | .nullable shape, j => j.optional? shape.ofJson?
  | .nullAs given shape, j => (j.optional? shape.ofJson?).map (·.getD given)
  | .sequence shape, j => j.items?.bind (·.mapM shape.ofJson?)
  | .record _ fields build _, j =>
    (j.record?
      (fun members => (members.foldlM (takeEntry fields) fields.unread).bind fun slots =>
        (fields.finish slots).toOption)
      (takeRow fields)).map build

/-- Puts the value of a key into its slot, unless it has come before. -/
def takeEntry {σ τ : Type} : Fields σ τ → τ → String × Json → Option τ
  | .none, (), _ => some ()
  | .cons name _ shape more, (slot, slots), (key, j) =>
    if key = name then
      if slot.isSome then none else (shape.ofJson? j).map fun value => (some value, slots)
    else (takeEntry more slots (key, j)).map fun slots => (slot, slots)

def takeRow {σ τ : Type} : Fields σ τ → List Json → Option σ
  | .none, [] => some ()
  | .none, _ :: _ => none
  | .cons key fallback shape more, [] =>
    ((Fields.cons key fallback shape more).fillFrom 0).toOption
  | .cons _ _ shape more, j :: items =>
    (shape.ofJson? j).bind fun value => (takeRow more items).map fun values => (value, values)

end

attribute [simp] read

def FollowsTree {α : Type} (shape : Shape α) (depth : Nat) : Prop :=
  ∀ ⦃bytes : Bytes⦄ ⦃j : Json⦄ ⦃rest : Bytes⦄, Yields (value depth bytes) j rest →
    Agrees (shape.read depth bytes) (shape.ofJson? j) rest

section

variable {α : Type} {depth : Nat} {bytes tail rest : Bytes} {b : UInt8} {j : Json}

theorem agrees_expecting {want : String} {starts : UInt8 → Bool} {expected : Option α}
    {item : (b : UInt8) → (rest : Bytes) → Except Fault (Step α (rest.length + 1))}
    (found : skipBlank bytes = b :: tail)
    (fits : starts b = true → Agrees (item b tail) expected rest)
    (misses : starts b = false → expected = none) :
    Agrees (expecting want starts item bytes) expected rest := by
  unfold expecting
  split
  · rename_i none
    rw [found] at none
    cases none
  · rename_i c more some
    rw [found] at some
    cases some
    cases start : starts b with
    | true => simpa using (fits start).within _
    | false =>
      rw [misses start, if_neg (by simp)]
      exact ⟨_, rfl⟩

theorem agrees_readText (want : String) (ok : Yields (value depth bytes) j rest) :
    Agrees (readText want bytes) j.text? rest := by
  obtain ⟨b, tail, found, spelled⟩ := spelled_of_value ok
  refine agrees_expecting found (fun start => ?_) (fun start => ?_)
  · obtain ⟨s, rfl⟩ := spelled.announces.text.mp (by simpa using start)
    cases spelled with
    | text _ spelling => exact spelling.map _ id fun _ => ⟨rfl, rfl⟩
  · cases j with
    | text s => exact absurd (spelled.announces.text.mpr ⟨s, rfl⟩) (by simpa using start)
    | _ => rfl

theorem agrees_readFlag (ok : Yields (value depth bytes) j rest) :
    Agrees (readFlag bytes) j.flag? rest := by
  obtain ⟨b, tail, found, spelled⟩ := spelled_of_value ok
  refine agrees_expecting found (fun start => ?_) (fun start => ?_)
  · obtain ⟨truth, rfl⟩ := spelled.announces.flag.mp (by simpa using start)
    cases spelled with
    | truth start spelling =>
      rw [if_pos start]
      exact spelling.map _ (fun _ => true) fun _ => ⟨rfl, rfl⟩
    | falsity start spelling =>
      rw [if_neg (by simp [start])]
      exact spelling.map _ (fun _ => false) fun _ => ⟨rfl, rfl⟩
  · cases j with
    | flag truth => exact absurd (spelled.announces.flag.mpr ⟨truth, rfl⟩) (by simpa using start)
    | _ => rfl

theorem agrees_readNull (want : String) (ok : Yields (value depth bytes) j rest) :
    Agrees (readNull want bytes) (if j.isNull then some () else none) rest := by
  obtain ⟨b, tail, found, spelled⟩ := spelled_of_value ok
  refine agrees_expecting found (fun start => ?_) (fun start => ?_)
  · obtain rfl := spelled.announces.null.mp (by simpa using start)
    cases spelled with
    | null _ spelling => exact spelling
  · cases j with
    | null => exact absurd (spelled.announces.null.mpr rfl) (by simpa using start)
    | _ => rfl

theorem agrees_accepting (want : String) (accept : Number → Except Cause α)
    (ok : Yields (value depth bytes) j rest) :
    Agrees (accepting want accept bytes)
      (j.number?.bind fun n => (accept n).toOption) rest := by
  obtain ⟨b, tail, found, spelled⟩ := spelled_of_value ok
  refine agrees_expecting found (fun start => ?_) (fun start => ?_)
  · obtain ⟨n, rfl⟩ := spelled.announces.number.mp (by simpa [startsNumber] using start)
    cases spelled with
    | number _ spelling =>
      obtain ⟨step, read, rfl, rfl⟩ := spelling
      rw [read]
      simp only [number?, Option.bind_some, bind, Except.bind]
      cases accept step.value with
      | error cause => exact ⟨_, rfl⟩
      | ok a => exact ⟨step.map fun _ => a, rfl, rfl, rfl⟩
  · cases j with
    | number n =>
      exact absurd (spelled.announces.number.mpr ⟨n, rfl⟩) (by simpa [startsNumber] using start)
    | _ => rfl

theorem natural?_eq (name : String) (greatest : Nat) (j : Json) :
    j.natural? greatest = j.number?.bind fun n => (acceptNatural name greatest n).toOption := by
  cases j with
  | number n =>
    cases n with
    | natural n =>
      simp only [natural?, number?, Option.bind_some, acceptNatural]
      split <;> rfl
    | _ => rfl
  | _ => rfl

theorem followsTree_natural (name : String) (greatest depth : Nat) :
    FollowsTree (.natural name greatest) depth := by
  intro bytes j rest ok
  rw [read, ofJson?, natural?_eq name]
  exact agrees_accepting _ _ ok

theorem followsTree_word (depth : Nat) : FollowsTree .word depth := by
  intro bytes j rest ok
  rw [read, ofJson?, natural?_eq "u64"]
  exact (agrees_accepting _ _ ok).map _ _ fun _ => ⟨rfl, rfl⟩

theorem followsTree_halfWord (depth : Nat) : FollowsTree .halfWord depth := by
  intro bytes j rest ok
  rw [read, ofJson?, natural?_eq "u32"]
  exact (agrees_accepting _ _ ok).map _ _ fun _ => ⟨rfl, rfl⟩

theorem followsTree_real (depth : Nat) : FollowsTree .real depth := by
  intro bytes j rest ok
  rw [read, ofJson?]
  have agrees := agrees_accepting "f64" (fun n => .ok (toReal n)) ok
  cases j <;> exact agrees

theorem followsTree_instant (depth : Nat) : FollowsTree .instant depth := by
  intro bytes j rest ok
  rw [read, ofJson?, readInstant]
  refine (agrees_readText _ ok).bind fun step ends => ?_
  subst ends
  cases Time.parseLenient step.value with
  | error e => exact ⟨_, rfl⟩
  | ok t => exact ⟨step.map fun _ => t, rfl, rfl, rfl⟩

theorem agrees_readWord {vocabulary : Vocabulary α} {expected : Option String}
    (text : Agrees (readText "variant identifier" bytes) expected rest) :
    Agrees (readWord vocabulary bytes) (expected.bind (@Vocabulary.find? α vocabulary)) rest := by
  refine text.bind fun step ends => ?_
  subst ends
  cases @Vocabulary.find? α vocabulary step.value with
  | none => exact ⟨_, rfl⟩
  | some a => exact ⟨step.map fun _ => a, rfl, rfl, rfl⟩

theorem readText_of_text (want : String) {s : String} (found : skipBlank bytes = b :: tail)
    (quote : letter b = '"') (ok : Yields (Scan.text tail) s rest) :
    Yields (readText want bytes) s rest := by
  have agrees : Agrees (readText want bytes) (some s) rest :=
    agrees_expecting found (fun _ => ok.map _ id fun _ => ⟨rfl, rfl⟩)
      (fun start => by simp [quote] at start)
  exact agrees

theorem readText_fails (want : String) (found : skipBlank bytes = b :: tail)
    (noQuote : letter b ≠ '"') : Fails (readText want bytes) := by
  have agrees : Agrees (readText want bytes) none [] :=
    agrees_expecting found (fun start => absurd (by simpa using start) noQuote) (fun _ => rfl)
  exact agrees

theorem closeBrace_of_brace (found : skipBlank bytes = b :: rest) (brace : letter b = '\x7d') :
    Yields (closeBrace bytes) () rest := by
  unfold closeBrace
  split
  · rename_i none
    rw [found] at none
    cases none
  · rename_i c more some
    rw [found] at some
    cases some
    rw [if_pos brace]
    exact ⟨_, rfl, rfl, rfl⟩

theorem closeBrace_fails (found : skipBlank bytes = b :: tail) (noBrace : letter b ≠ '\x7d') :
    Fails (closeBrace bytes) := by
  unfold closeBrace
  split
  · exact ⟨_, rfl⟩
  · rename_i c more some
    rw [found] at some
    cases some
    rw [if_neg noBrace]
    exact ⟨_, rfl⟩

theorem word?_object_cons (key : String) (j : Json) (members : List (String × Json)) :
    (Json.object ((key, j) :: members)).word? =
      if j.isNull && members.isEmpty then some key else none := by
  cases members <;> cases j <;> rfl

theorem agrees_closeBrace {first : Bool} {middle : Bytes} {members : List (String × Json)}
    (entries : Entries (value depth) first middle members rest) :
    Agrees (closeBrace middle) (if members.isEmpty then Option.some () else none) rest := by
  cases entries with
  | done next =>
    obtain ⟨c, close, closing⟩ := nextMember_done next
    exact closeBrace_of_brace close closing
  | entry next =>
    obtain ⟨c, more, close, noClosing, _⟩ := nextMember_item next
    exact closeBrace_fails close noClosing

/-- An object stands for a word if the word is its only key and holds null. -/
theorem agrees_choiceObject {vocabulary : Vocabulary α} {members : List (String × Json)}
    (found : skipBlank bytes = b :: tail) (brace : letter b = '\x7b')
    (entries : Entries (value depth) true tail members rest) :
    Agrees (readChoice vocabulary (depth + 1) bytes)
      ((Json.object members).word?.bind (@Vocabulary.find? α vocabulary)) rest := by
  unfold readChoice
  split
  · rename_i none
    rw [found] at none
    cases none
  rename_i c more here
  rw [found] at here
  cases here
  rw [if_pos brace, if_neg (Nat.succ_ne_zero depth)]
  cases entries with
  | done next =>
    obtain ⟨c, close, closing⟩ := nextMember_done next
    obtain ⟨f, failed⟩ := readText_fails "variant identifier" close (by rw [closing]; decide)
    exact ⟨f, by rw [readWord, failed]; rfl⟩
  | @entry _ _ start within key behind j middle members _ next name value others =>
    obtain ⟨c, more, first, _, ⟨_, quote, rfl⟩ | ⟨later, _⟩⟩ := nextMember_item next
    case inr => cases later
    have text : Agrees (readText "variant identifier" tail) (Option.some key) behind :=
      readText_of_text _ first quote name
    obtain ⟨place, mark, head⟩ := memberValue_spelled value
    have unit := agrees_readNull "unit" head
    have close := agrees_closeBrace others
    have expected : (Json.object ((key, j) :: members)).word?.bind (@Vocabulary.find? α vocabulary) =
        ((Option.some key).bind (@Vocabulary.find? α vocabulary)).bind fun a =>
          (Option.some ()).bind fun _ => (if j.isNull then Option.some () else none).bind fun _ =>
            (if members.isEmpty then Option.some () else none).bind fun _ => Option.some a := by
      rw [word?_object_cons]
      cases j.isNull <;> cases members.isEmpty <;>
        cases @Vocabulary.find? α vocabulary key <;> simp
    rw [expected]
    refine (agrees_readWord text).bind fun word ends => ?_
    subst ends
    refine Agrees.bind mark fun mark ends => ?_
    subst ends
    refine unit.bind fun unit ends => ?_
    subst ends
    refine close.bind fun close ends => ?_
    subst ends
    exact ⟨_, rfl, rfl, rfl⟩

theorem followsTree_choice (vocabulary : Vocabulary α) (depth : Nat) :
    FollowsTree (.choice vocabulary) depth := by
  intro bytes j rest ok
  obtain ⟨b, tail, found, spelled⟩ := spelled_of_value ok
  rw [read, ofJson?]
  by_cases brace : letter b = '\x7b'
  · obtain ⟨members, rfl⟩ := spelled.announces.object.mp brace
    cases spelled with
    | object _ entries => exact agrees_choiceObject found brace entries
  unfold readChoice
  split
  · rename_i none
    rw [found] at none
    cases none
  rename_i c more here
  rw [found] at here
  cases here
  rw [if_neg brace]
  by_cases quote : letter b = '"'
  · obtain ⟨s, rfl⟩ := spelled.announces.text.mp quote
    cases spelled with
    | text _ spelling =>
      have alone : skipBlank (b :: tail) = b :: tail := by rw [← found, skipBlank_skipBlank]
      have text : Agrees (readText "variant identifier" (b :: tail)) (some s) rest :=
        readText_of_text _ alone quote spelling
      rw [if_pos quote]
      simpa [word?] using (agrees_readWord text).within _
  · rw [if_neg quote]
    have other : j.word? = none := by
      cases j with
      | text s => exact absurd (spelled.announces.text.mpr ⟨s, rfl⟩) quote
      | object members => exact absurd (spelled.announces.object.mpr ⟨members, rfl⟩) brace
      | _ => rfl
    rw [other]
    exact ⟨_, rfl⟩

theorem agrees_readOptional {item : (bytes : Bytes) → Except Fault (Step α bytes.length)}
    {f : Json → Option α} (ok : Yields (value depth bytes) j rest)
    (inner : Agrees (item bytes) (f j) rest) :
    Agrees (readOptional item bytes) (j.optional? f) rest := by
  obtain ⟨b, tail, found, spelled⟩ := spelled_of_value ok
  unfold readOptional
  split
  · rename_i none
    rw [found] at none
    cases none
  rename_i c more here
  rw [found] at here
  cases here
  by_cases start : letter b = 'n'
  · obtain rfl := spelled.announces.null.mp start
    cases spelled with
    | null _ spelling =>
      rw [if_pos start]
      exact spelling.map _ (fun _ => none) fun _ => ⟨rfl, rfl⟩
  · rw [if_neg start]
    have given : j.optional? f = (f j).map some := by
      cases j with
      | null => exact absurd (spelled.announces.null.mpr rfl) start
      | _ => rfl
    rw [given]
    exact inner.map _ some fun _ => ⟨rfl, rfl⟩

theorem followsTree_optional {shape : Shape α} (inner : FollowsTree shape depth) :
    FollowsTree (.optional shape) depth := by
  intro bytes j rest ok
  rw [read, ofJson?]
  exact agrees_readOptional ok (inner ok)

theorem followsTree_nullable {shape : Shape α} (inner : FollowsTree shape depth) :
    FollowsTree (.nullable shape) depth := by
  intro bytes j rest ok
  rw [read, ofJson?]
  exact agrees_readOptional ok (inner ok)

theorem followsTree_nullAs {shape : Shape α} (given : α) (inner : FollowsTree shape depth) :
    FollowsTree (.nullAs given shape) depth := by
  intro bytes j rest ok
  rw [read, ofJson?]
  exact (agrees_readOptional ok (inner ok)).map _ (·.getD given) fun _ => ⟨rfl, rfl⟩

theorem agrees_items {shape : Shape α} (follows : FollowsTree shape depth) {index : Nat}
    {list : List Json} (elements : Elements (value depth) index bytes list rest) :
    Agrees (items (shape.read depth) index bytes) (list.mapM shape.ofJson?) rest := by
  induction elements with
  | done next =>
    rw [items, next]
    exact ⟨_, rfl, rfl, rfl⟩
  | @item index bytes start within j middle others rest next head tail ih =>
    rw [items, next, List.mapM_cons]
    dsimp only
    obtain ⟨none, f, failed⟩ | ⟨step, some, read, rfl⟩ := (follows head).cases
    · rw [none, failed]
      exact ⟨_, rfl⟩
    · rw [some, read]
      dsimp only
      obtain ⟨none, f, failed⟩ | ⟨more, some, read, rfl⟩ := ih.cases
      · rw [none, failed]
        exact ⟨f, rfl⟩
      · rw [some, read]
        exact ⟨_, rfl, rfl, rfl⟩

theorem followsTree_sequence {shape : Shape α} (inner : ∀ depth, FollowsTree shape depth) :
    FollowsTree (.sequence shape) depth := by
  intro bytes j rest ok
  obtain ⟨b, tail, found, spelled⟩ := spelled_of_value ok
  rw [read, ofJson?]
  refine agrees_expecting found (fun start => ?_) (fun start => ?_)
  · obtain ⟨list, rfl⟩ := spelled.announces.list.mp (by simpa using start)
    cases spelled with
    | list _ elements => simpa [items?] using (agrees_items (inner _) elements).wider
  · cases j with
    | list items => exact absurd (spelled.announces.list.mpr ⟨items, rfl⟩) (by simpa using start)
    | _ => rfl

end

section

variable {α σ τ : Type} {depth : Nat} {bytes rest : Bytes}

def FollowsEntries (fields : Fields σ τ) (depth : Nat) : Prop :=
  ∀ ⦃slots : τ⦄ ⦃key : String⦄ ⦃bytes : Bytes⦄ ⦃j : Json⦄ ⦃rest : Bytes⦄,
    Yields (memberValue (value depth) key bytes) j rest →
      Agrees (readMember depth fields slots key bytes) (takeEntry fields slots (key, j)) rest

def FollowsRow (fields : Fields σ τ) (depth : Nat) : Prop :=
  ∀ ⦃want : String⦄ ⦃index : Nat⦄ ⦃bytes : Bytes⦄ ⦃items : List Json⦄ ⦃rest : Bytes⦄,
    Elements (value depth) index bytes items rest →
      Agrees (readItems depth want fields index bytes) (takeRow fields items) rest

theorem agrees_memberValue {item : (bytes : Bytes) → Except Fault (Step α bytes.length)}
    {expected : Option α} {key : String} {j : Json}
    (ok : Yields (memberValue (value depth) key bytes) j rest)
    (inner : ∀ {start}, Yields (value depth start) j rest → Agrees (item start) expected rest) :
    Agrees (memberValue item key bytes) expected rest := by
  obtain ⟨place, ⟨mark, colon, _, rfl⟩, head⟩ := memberValue_spelled ok
  unfold memberValue
  rw [colon]
  dsimp only
  obtain ⟨rfl, f, failed⟩ | ⟨step, rfl, read, rfl⟩ := (inner head).cases
  · rw [failed]
    exact ⟨_, rfl⟩
  · rw [read]
    exact ⟨_, rfl, rfl, rfl⟩

theorem followsEntries_none (depth : Nat) : FollowsEntries .none depth := by
  intro slots key bytes j rest ok
  cases slots
  rw [readMember, takeEntry]
  exact agrees_memberValue ok fun head => skip_of_value head

theorem followsEntries_cons {key : String} {fallback : Option α} {shape : Shape α}
    {more : Fields σ τ} (inner : FollowsTree shape depth) (others : FollowsEntries more depth) :
    FollowsEntries (.cons key fallback shape more) depth := by
  intro (slot, slots) name bytes j rest ok
  rw [readMember, takeEntry]
  split
  · split
    · exact ⟨_, rfl⟩
    · have taken := agrees_memberValue ok fun head => inner head
      exact taken.map _ (fun value => (some value, slots)) fun _ => ⟨rfl, rfl⟩
  · exact (others ok).map _ (fun slots => (slot, slots)) fun _ => ⟨rfl, rfl⟩

theorem agrees_members {fields : Fields σ τ} (follows : FollowsEntries fields depth) {first : Bool}
    {list : List (String × Json)} (entries : Entries (value depth) first bytes list rest)
    (slots : τ) :
    Agrees (members (readMember depth fields) first slots bytes)
      (list.foldlM (takeEntry fields) slots) rest := by
  induction entries generalizing slots with
  | done next =>
    rw [members, next]
    exact ⟨_, rfl, rfl, rfl⟩
  | @entry first bytes start within key behind j middle others rest next name value tail ih =>
    obtain ⟨text, named, rfl, rfl⟩ := name
    rw [members, next, List.foldlM_cons]
    have head : Agrees (readMember depth fields slots text.value text.rest) _ middle :=
      follows value
    dsimp only
    rw [named]
    dsimp only
    obtain ⟨none, f, failed⟩ | ⟨step, some, read, rfl⟩ := head.cases
    · rw [none, failed]
      exact ⟨f, rfl⟩
    · rw [some, read]
      change Agrees _ (others.foldlM (takeEntry fields) step.value) rest
      dsimp only
      obtain ⟨none, f, failed⟩ | ⟨last, some, read, rfl⟩ := (ih step.value).cases
      · rw [none, failed]
        exact ⟨f, rfl⟩
      · rw [some, read]
        exact ⟨_, rfl, rfl, rfl⟩

theorem closeBracket_of_bracket {b : UInt8} (found : skipBlank bytes = b :: rest)
    (bracket : letter b = ']') : Yields (closeBracket bytes) () rest := by
  unfold closeBracket
  split
  · rename_i none
    rw [found] at none
    cases none
  · rename_i c more here
    rw [found] at here
    cases here
    rw [if_pos bracket]
    exact ⟨_, rfl, rfl, rfl⟩

theorem closeBracket_fails {b : UInt8} {tail : Bytes} (found : skipBlank bytes = b :: tail)
    (noBracket : letter b ≠ ']') : Fails (closeBracket bytes) := by
  unfold closeBracket
  split
  · exact ⟨_, rfl⟩
  · rename_i c more here
    rw [found] at here
    cases here
    rw [if_neg noBracket]
    split
    · split <;> exact ⟨_, rfl⟩
    · exact ⟨_, rfl⟩

theorem followsRow_none (depth : Nat) : FollowsRow .none depth := by
  intro want index bytes items rest elements
  rw [readItems]
  cases elements with
  | done next =>
    obtain ⟨b, found, bracket⟩ := nextItem_done next
    exact closeBracket_of_bracket found bracket
  | item next =>
    obtain ⟨b, tail, found, noBracket, _⟩ := nextItem_item next
    exact closeBracket_fails found noBracket

/-- Where fallbacks are taken from matters for the place of a missing one only. -/
theorem fillFrom_toOption {σ τ : Type} : (fields : Fields σ τ) → (index other : Nat) →
    (fields.fillFrom index).toOption = (fields.fillFrom other).toOption
  | .none, _, _ => rfl
  | .cons _ none _ _, _, _ => rfl
  | .cons _ (some _) _ more, index, other => by
    simp only [Fields.fillFrom, toOption_map]
    rw [fillFrom_toOption more (index + 1) (other + 1)]

theorem followsRow_cons {key : String} {fallback : Option α} {shape : Shape α}
    {more : Fields σ τ} (inner : FollowsTree shape depth) (others : FollowsRow more depth) :
    FollowsRow (.cons key fallback shape more) depth := by
  intro want index bytes items rest elements
  rw [readItems]
  cases elements with
  | done next =>
    rw [next, takeRow, fillFrom_toOption _ 0 index]
    dsimp only
    cases (Fields.cons key fallback shape more).fillFrom index with
    | error length => exact ⟨_, rfl⟩
    | ok values => exact ⟨_, rfl, rfl, rfl⟩
  | @item _ _ start within j middle items _ next head tail =>
    rw [next, takeRow]
    dsimp only
    obtain ⟨none, f, failed⟩ | ⟨step, some, read, rfl⟩ := (inner head).cases
    · rw [none, failed]
      exact ⟨_, rfl⟩
    · rw [some, read]
      exact (others tail).map _ (fun values => (step.value, values)) fun _ => ⟨rfl, rfl⟩

theorem followsTree_record {name : String} {fields : Fields σ τ} {build : σ → α} {parts : α → σ}
    (entries : ∀ depth, FollowsEntries fields depth) (row : ∀ depth, FollowsRow fields depth) :
    FollowsTree (.record name fields build parts) depth := by
  intro bytes j rest ok
  obtain ⟨b, tail, found, spelled⟩ := spelled_of_value ok
  rw [read, ofJson?]
  refine Agrees.map (agrees_expecting found (fun start => ?_) (fun start => ?_)) _ build
    fun _ => ⟨rfl, rfl⟩
  · by_cases bracket : letter b = '['
    · obtain ⟨items, rfl⟩ := spelled.announces.list.mp bracket
      cases spelled with
      | list _ elements =>
        simp only [if_pos bracket]
        simpa [record?] using (row _ elements).wider
    · have brace : letter b = '\x7b' := by simpa [bracket] using start
      obtain ⟨members, rfl⟩ := spelled.announces.object.mp brace
      cases spelled with
      | object _ spelling =>
        have agrees := agrees_members (entries _) spelling fields.unread
        simp only [if_neg bracket, record?]
        -- All members are taken before the fields are looked through for what is missing.
        obtain ⟨none, f, failed⟩ | ⟨step, some, read, rfl⟩ := agrees.cases
        · rw [none, failed]
          exact ⟨f, rfl⟩
        · rw [some, read, Option.bind_some]
          dsimp only
          cases fields.finish step.value with
          | error key => exact ⟨_, rfl⟩
          | ok values => exact ⟨_, rfl, rfl, rfl⟩
  · simp only [Bool.or_eq_false_iff, decide_eq_false_iff_not] at start
    cases j with
    | list items => exact absurd (spelled.announces.list.mpr ⟨items, rfl⟩) start.1
    | object members => exact absurd (spelled.announces.object.mpr ⟨members, rfl⟩) start.2
    | _ => rfl

end

mutual

/-- Every shape reads from a text what it finds in the tree of that text. -/
theorem followsTree {α : Type} : (shape : Shape α) → (depth : Nat) → FollowsTree shape depth
  | .word, depth => followsTree_word depth
  | .halfWord, depth => followsTree_halfWord depth
  | .natural name greatest, depth => followsTree_natural name greatest depth
  | .real, depth => followsTree_real depth
  | .text, _ => fun _ _ _ ok => by
    rw [read, ofJson?]
    exact agrees_readText _ ok
  | .flag, _ => fun _ _ _ ok => by
    rw [read, ofJson?]
    exact agrees_readFlag ok
  | .instant, depth => followsTree_instant depth
  | .choice vocabulary, depth => followsTree_choice vocabulary depth
  | .tree, _ => fun _ _ _ ok => by
    rw [read, ofJson?]
    exact ok
  | .optional shape, depth => followsTree_optional (followsTree shape depth)
  | .nullable shape, depth => followsTree_nullable (followsTree shape depth)
  | .nullAs given shape, depth => followsTree_nullAs given (followsTree shape depth)
  | .sequence shape, _ => followsTree_sequence (followsTree shape)
  | .record _ fields _ _, _ => followsTree_record (followsEntries fields) (followsRow fields)

theorem followsEntries {σ τ : Type} :
    (fields : Fields σ τ) → (depth : Nat) → FollowsEntries fields depth
  | .none, depth => followsEntries_none depth
  | .cons _ _ shape more, depth =>
    followsEntries_cons (followsTree shape depth) (followsEntries more depth)

theorem followsRow {σ τ : Type} : (fields : Fields σ τ) → (depth : Nat) → FollowsRow fields depth
  | .none, depth => followsRow_none depth
  | .cons _ _ shape more, depth =>
    followsRow_cons (followsTree shape depth) (followsRow more depth)

end

/-- A text that is one tree is decoded to what the tree holds, if it holds anything. -/
theorem decode_toOption {α : Type} (shape : Shape α) {source : Bytes} {j : Json}
    (ok : Json.read source = .ok j) : (shape.decode source).toOption = shape.ofJson? j := by
  unfold Json.read at ok
  split at ok
  · cases ok
  rename_i step found
  split at ok
  · cases ok
  rename_i ends
  cases ok
  unfold decode
  obtain ⟨none, f, failed⟩ | ⟨other, some, read, rest⟩ :=
    (followsTree shape depthLimit ⟨step, found, rfl, rfl⟩).cases
  · rw [none, failed]
    rfl
  · rw [some, read]
    dsimp only
    rw [rest, ends]
    rfl

end Shape

end NotificationRelay
