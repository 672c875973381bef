import AlignPlan.Format.Phrase

/-! The grammar of automata files. A file is a list of blocks, one for each trace and each
constraint; a block is a list of items. Words of the grammar may serve as names of states. -/
namespace AlignPlan.Format

abbrev Token := Located String

inductive Item
  | states (names : List Token)
  | alphabet (names : List Token)
  | init (name : Token)
  | accept (names : List Token)
  | transition (source symbol target : Token)
  deriving DecidableEq

inductive BlockKind
  | trace | constraint
  deriving DecidableEq

structure Block where
  kind : BlockKind
  id : Token
  items : List (Located Item)
  deriving DecidableEq

def isWordChar (c : Char) : Bool := c.isAlphanum || c == '_'

/-- Whether a character goes on with a name, given what follows it. A dash does unless it opens
`--` or `->`, which delimit transitions. -/
def continuesName (c : Char) (rest : List Char) : Bool :=
  isWordChar c || (c == '-' && !(rest.head?.any fun d => d == '-' || d == '>'))

/-- Cuts a text where `continues` first fails of a character and what follows it. -/
def splitWhile (continues : Char → List Char → Bool) : List Char → List Char × List Char
  | [] => ([], [])
  | c :: rest =>
    if continues c rest then
      let (word, rest) := splitWhile continues rest
      (c :: word, rest)
    else ([], c :: rest)

theorem splitWhile_append (continues : Char → List Char → Bool) (text : List Char) :
    (splitWhile continues text).1 ++ (splitWhile continues text).2 = text := by
  fun_induction splitWhile continues text with
  | case1 => rfl
  | case2 c rest goesOn word after split ih => simp_all
  | case3 => rfl

/-- A non-empty word. -/
def readWord (continues : Char → List Char → Bool) (c : Cursor) : Option (Token × Cursor) :=
  let (word, rest) := splitWhile continues c.rest
  if word.isEmpty then none
  else
    let stop := c.offset + byteLength word
    some (⟨String.ofList word, c.offset, stop⟩, ⟨stop, rest⟩)

theorem length_readWord {continues : Char → List Char → Bool} {c c' : Cursor} {token : Token}
    (h : readWord continues c = some (token, c')) : c'.rest.length < c.rest.length := by
  have whole := splitWhile_append continues c.rest
  unfold readWord at h
  split at h
  next word rest split =>
    split at h
    next => cases h
    next nonempty =>
      cases h
      simp only [split] at whole
      have : 0 < word.length := List.length_pos_iff.mpr fun empty => nonempty (by simp [empty])
      rw [← whole, List.length_append]
      simp only
      omega

/-- A word of the grammar, which must not run on into a name. -/
def readKeyword (word : String) (c : Cursor) : Option (Unit × Cursor) :=
  match c.drop? word.toList with
  | none => none
  | some c => if c.rest.head?.any isWordChar then none else some ((), c)

theorem length_readKeyword {word : String} {c c' : Cursor} {u : Unit}
    (h : readKeyword word c = some (u, c')) :
    c'.rest.length + word.toList.length = c.rest.length := by
  unfold readKeyword at h
  split at h
  next => cases h
  next after dropped =>
    split at h
    next => cases h
    next =>
      cases h
      exact Cursor.length_drop? dropped

def readEnd (c : Cursor) : Option (Unit × Cursor) :=
  if c.rest.isEmpty then some ((), c) else none

namespace Grammar

open Phrase

/-- A word all of whose characters satisfy `continues`. -/
def word (symbol : Symbol) (continues : Char → List Char → Bool) : Phrase Token :=
  atom symbol (readWord continues) fun h => Nat.le_of_lt (length_readWord h)

theorem consumes_word (symbol : Symbol) (continues : Char → List Char → Bool) :
    (word symbol continues).Consumes :=
  fun _ _ _ h => length_readWord h

def name : Phrase Token := word .name continuesName

def number : Phrase Token := word .number fun c _ => c.isDigit

def ident : Phrase Token := word .ident fun c _ => c.isAlphanum

def endOfInput : Phrase Unit :=
  atom .endOfInput readEnd fun h => by
    unfold readEnd at h
    split at h
    next =>
      cases h
      exact Nat.le_refl _
    next => cases h

def keyword (symbol : Symbol) (text : String) : Phrase Unit :=
  atom symbol (readKeyword text) fun h => Nat.le.intro (length_readKeyword h)

theorem consumes_keyword (symbol : Symbol) {text : String} (nonempty : text.toList ≠ []) :
    (keyword symbol text).Consumes := by
  intro c u c' h
  have := length_readKeyword h
  have := List.length_pos_iff.mpr nonempty
  omega

/-- Any number of names up to a semicolon. -/
def names : Phrase (List Token) :=
  (many name (consumes_word _ _)).closedBy (literal ";")

def states : Phrase Item :=
  named .states ((before (keyword .statesWord "states") names).map .states)

def alphabet : Phrase Item :=
  named .alphabet ((before (keyword .alphabetWord "alphabet") names).map .alphabet)

def init : Phrase Item :=
  named .init ((before (keyword .initWord "init") (name.closedBy (literal ";"))).map .init)

def accept : Phrase Item :=
  named .accept ((before (keyword .acceptWord "accept") names).map .accept)

def transition : Phrase Item :=
  named .transition <|
    (name.andThen (before (literal "--") (name.andThen
      (before (literal "->") (name.closedBy (literal ";")))))).map
    fun (source, symbol, target) => .transition source symbol target

def item : Phrase (Located Item) :=
  located (states.orElse (alphabet.orElse (init.orElse (accept.orElse transition))))

theorem consumes_item : item.Consumes := by
  refine Consumes.located (Consumes.orElse ?_ (Consumes.orElse ?_ (Consumes.orElse ?_
    (Consumes.orElse ?_ ?_))))
  · exact (((consumes_keyword _ (by decide)).before _).map _).named _
  · exact (((consumes_keyword _ (by decide)).before _).map _).named _
  · exact (((consumes_keyword _ (by decide)).before _).map _).named _
  · exact (((consumes_keyword _ (by decide)).before _).map _).named _
  · exact (((consumes_word _ _).andThen _).map _).named _

/-- The items of a block between its brackets. -/
def body : Phrase (List (Located Item)) :=
  before (literal "\x7b") ((many item consumes_item).closedBy (literal "\x7d"))

def block (kind : BlockKind) (symbol : Symbol) (text : String) (id : Phrase Token) :
    Phrase (Located Block) :=
  located <| named symbol <|
    (before (literal text) (id.andThen body)).map fun (id, items) => ⟨kind, id, items⟩

def trace : Phrase (Located Block) := block .trace .trace "trace" number

def constraint : Phrase (Located Block) := block .constraint .constraint "constraint" ident

theorem consumes_block (kind : BlockKind) (symbol : Symbol) {text : String}
    (id : Phrase Token) (nonempty : text.toList ≠ []) : (block kind symbol text id).Consumes :=
  ((((consumes_literal nonempty).before _).map _).named _).located

theorem consumes_anyBlock : (trace.orElse constraint).Consumes :=
  (consumes_block _ _ _ (by decide)).orElse (consumes_block _ _ _ (by decide))

def file : Phrase (List (Located Block)) :=
  named .file <|
    before here ((many (trace.orElse constraint) consumes_anyBlock).closedBy endOfInput)

end Grammar

/-- The blocks of a text, or where reading it had to stop and what was expected there. -/
def readBlocks (text : String) : Except (Nat × List Symbol) (List (Located Block)) :=
  let start := Cursor.ofString text
  match Grammar.file.read start with
  | some (blocks, _) => .ok blocks
  | none =>
    let trail := Grammar.file.trail start Trail.start
    .error (trail.offset, trail.symbols)

end AlignPlan.Format
