import AlignPlan.Proofs.Format.Words
import AlignPlan.Text.Decimal

/-! What a file holds, without places and without layout: its blocks and items as lists of words.
A file that is made of such words is read as the blocks they spell, however it is laid out. -/
namespace AlignPlan.Format

/-- An item without the places of its names. -/
inductive Clause
  | states (names : List String)
  | alphabet (names : List String)
  | init (name : String)
  | accept (names : List String)
  | transition (source symbol target : String)
  deriving DecidableEq

namespace Clause

def names : Clause → List String
  | .states names => names
  | .alphabet names => names
  | .init name => [name]
  | .accept names => names
  | .transition source symbol target => [source, symbol, target]

def words : Clause → List String
  | .states names => "states" :: (names ++ [";"])
  | .alphabet names => "alphabet" :: (names ++ [";"])
  | .init name => ["init", name, ";"]
  | .accept names => "accept" :: (names ++ [";"])
  | .transition source symbol target => [source, "--", symbol, "->", target, ";"]

end Clause

/-- What an item states. -/
def Item.clause : Item → Clause
  | .states names => .states (names.map Located.value)
  | .alphabet names => .alphabet (names.map Located.value)
  | .init name => .init name.value
  | .accept names => .accept (names.map Located.value)
  | .transition source symbol target => .transition source.value symbol.value target.value

/-- A block without places. -/
structure Outline where
  kind : BlockKind
  id : String
  clauses : List Clause
  deriving DecidableEq

def BlockKind.word : BlockKind → String
  | .trace => "trace"
  | .constraint => "constraint"

def Outline.words (o : Outline) : List String :=
  [o.kind.word, o.id, "\x7b"] ++ (o.clauses.flatMap Clause.words ++ ["\x7d"])

def Block.outline (b : Block) : Outline :=
  ⟨b.kind, b.id.value, b.items.map fun item => item.value.clause⟩

namespace Grammar

open Phrase

theorem name_refuses {word : String} {more : List String} {first : Char} {others : List Char}
    (start : word.toList = first :: others)
    (stops : ∀ rest, continuesName first (others ++ rest) = false) :
    name.Refuses (word :: more) := word_refuses start stops

theorem names_takes {texts : List String} (writable : ∀ text ∈ texts, Name.Writable text) :
    names.Takes (texts ++ [";"]) fun tokens => tokens.map Located.value = texts := by
  have whole : names.Takes (texts.flatMap (fun text => [text]) ++ [";"])
      fun tokens => tokens.map Located.value = texts := by
    apply many_closedBy_takes
    · intro text member
      exact name_takes (writable text member)
    · intro text member
      exact isSolid_of_legible (writable text member).1
    · exact literal_takes ";"
    · rfl
    · intro more
      exact name_refuses rfl fun _ => rfl
  rwa [List.flatMap_singleton'] at whole

theorem names_refuses {texts more : List String} (writable : ∀ text ∈ texts, Name.Writable text) :
    names.Refuses (texts ++ "--" :: more) := by
  apply Refuses.map
  apply refuses_andThen
  intro c tokens c' faces read
  have spelled : Faces (texts.flatMap (fun text => [text]) ++ "--" :: more) c.rest := by
    rwa [List.flatMap_singleton']
  obtain ⟨_, _, found, _, faces⟩ := many_takes (consumes_word _ _)
    (fun text member => name_takes (writable text member))
    (fun text member => isSolid_of_legible (writable text member).1) (starts_cons rfl)
    (name_refuses rfl fun _ => rfl) spelled
  cases found.symm.trans read
  exact literal_refuses rfl c'.skip faces

/-- An item that is a word of the grammar with names after it. -/
def listing (symbol wordSymbol : Symbol) (text : String) (make : List Token → Item) : Phrase Item :=
  named symbol ((before (keyword wordSymbol text) names).map make)

section Listing

variable {symbol wordSymbol : Symbol} {text : String} {make : List Token → Item}

theorem listing_takes {texts : List String} (writable : ∀ name ∈ texts, Name.Writable name) :
    (listing symbol wordSymbol text make).Takes (text :: (texts ++ [";"])) fun item =>
      ∃ tokens, item = make tokens ∧ tokens.map Located.value = texts := by
  have begins : Begins (texts ++ [";"]) := by
    cases texts with
    | nil => rfl
    | cons first others => exact isSolid_of_legible (writable first List.mem_cons_self).1
  apply Takes.named
  apply Takes.map
  apply ((keyword_takes wordSymbol text).before (names_takes writable) begins).mono
  intro tokens same
  exact ⟨tokens, rfl, same⟩

theorem listing_refuses {word : String} {more : List String} (h : apart text word = true) :
    (listing symbol wordSymbol text make).Refuses (word :: more) :=
  (((keyword_refuses h).andThen _).map _ |>.map _).named _

/-- A transition from a state whose name begins with the word. -/
theorem listing_refuses_transition {source : String} {more : List String}
    (letters : text.toList.all isWordChar = true) (writable : Name.Writable source) :
    (listing symbol wordSymbol text make).Refuses (source :: "--" :: more) := by
  apply Refuses.named
  apply Refuses.map
  apply Refuses.map
  apply refuses_andThen
  intro c u c' faces read
  rcases rest_of_keyword letters writable (starts_cons rfl) faces read with
    faces | ⟨rest, remains, faces⟩
  · exact names_refuses (List.forall_mem_nil _) c'.skip faces
  · have one : ∀ text ∈ [rest], Name.Writable text := by simpa using remains
    exact names_refuses one c'.skip faces

end Listing

theorem init_takes {text : String} (writable : Name.Writable text) :
    init.Takes (Clause.init text).words fun item => item.clause = .init text := by
  apply Takes.named
  apply Takes.map
  have named : (name.closedBy (literal ";")).Takes ([text] ++ [";"]) fun token =>
      token.value = text := (name_takes writable).closedBy (literal_takes ";") rfl
  apply ((keyword_takes .initWord "init").before named (isSolid_of_legible writable.1)).mono
  intro token same
  simp [Item.clause, same]

theorem init_refuses {word : String} {more : List String} (h : apart "init" word = true) :
    init.Refuses (word :: more) :=
  (((keyword_refuses h).andThen _).map _ |>.map _).named _

theorem init_refuses_transition {source : String} {more : List String}
    (writable : Name.Writable source) : init.Refuses (source :: "--" :: more) := by
  apply Refuses.named
  apply Refuses.map
  apply Refuses.map
  apply refuses_andThen
  intro c u c' faces read
  have letters : "init".toList.all isWordChar = true := rfl
  rcases rest_of_keyword letters writable (starts_cons rfl) faces read with
    faces | ⟨rest, remains, faces⟩
  · have refused : name.Refuses ("--" :: more) := name_refuses rfl fun _ => rfl
    exact ((refused.andThen _).map _) c'.skip faces
  · have refused : (name.closedBy (literal ";")).Refuses (rest :: "--" :: more) := by
      apply Refuses.map
      apply refuses_andThen
      intro c x c' faces read
      obtain ⟨_, _, found, _, follows⟩ := name_takes remains c _ faces
      cases found.symm.trans read
      exact literal_refuses rfl c'.skip (faces_skip (starts_cons rfl) follows)
    exact refused c'.skip faces

theorem transition_takes {source symbol target : String} (first : Name.Writable source)
    (second : Name.Writable symbol) (third : Name.Writable target) :
    transition.Takes (Clause.transition source symbol target).words fun item =>
      item.clause = .transition source symbol target := by
  apply Takes.named
  apply Takes.map
  have last := (name_takes third).closedBy (literal_takes ";") rfl
  have arrow := (literal_takes "->").before last (isSolid_of_legible third.1)
  have middle := (name_takes second).andThen arrow rfl
  have dashes := (literal_takes "--").before middle (isSolid_of_legible second.1)
  apply ((name_takes first).andThen dashes rfl).mono
  rintro ⟨s, y, t⟩ ⟨sameSource, sameSymbol, sameTarget⟩
  simp only at sameSource sameSymbol sameTarget
  simp [Item.clause, sameSource, sameSymbol, sameTarget]

theorem item_takes {clause : Clause} (writable : ∀ name ∈ clause.names, Name.Writable name) :
    item.Takes clause.words fun item => item.value.clause = clause := by
  have spelled : (states.orElse (alphabet.orElse (init.orElse (accept.orElse transition)))).Takes
      clause.words fun item => item.clause = clause := by
    cases clause with
    | states texts =>
      apply Takes.orElse
      apply (listing_takes writable).mono
      rintro _ ⟨tokens, rfl, rfl⟩
      rfl
    | alphabet texts =>
      apply Refuses.orElse_takes fun _ => listing_refuses rfl
      apply Takes.orElse
      apply (listing_takes writable).mono
      rintro _ ⟨tokens, rfl, rfl⟩
      rfl
    | init text =>
      apply Refuses.orElse_takes fun _ => listing_refuses rfl
      apply Refuses.orElse_takes fun _ => listing_refuses rfl
      apply Takes.orElse
      exact init_takes (writable text List.mem_cons_self)
    | accept texts =>
      apply Refuses.orElse_takes fun _ => listing_refuses rfl
      apply Refuses.orElse_takes fun _ => listing_refuses rfl
      apply Refuses.orElse_takes fun _ => init_refuses rfl
      apply Takes.orElse
      apply (listing_takes writable).mono
      rintro _ ⟨tokens, rfl, rfl⟩
      rfl
    | transition source symbol target =>
      -- The source may be called like a word of the grammar or begin with one, so every other kind
      -- of item is tried on it and fails at the dashes at the latest.
      have first := writable source (by simp [Clause.names])
      apply Refuses.orElse_takes fun _ => listing_refuses_transition rfl first
      apply Refuses.orElse_takes fun _ => listing_refuses_transition rfl first
      apply Refuses.orElse_takes fun _ => init_refuses_transition first
      apply Refuses.orElse_takes fun _ => listing_refuses_transition rfl first
      exact transition_takes first (writable symbol (by simp [Clause.names]))
        (writable target (by simp [Clause.names]))
  exact spelled.located

theorem item_refuses {more : List String} : item.Refuses ("\x7d" :: more) := by
  have name : name.Refuses ("\x7d" :: more) := name_refuses rfl fun _ => rfl
  have transition : transition.Refuses ("\x7d" :: more) := ((name.andThen _).map _).named _
  have states : states.Refuses ("\x7d" :: more) := listing_refuses rfl
  have alphabet : alphabet.Refuses ("\x7d" :: more) := listing_refuses rfl
  have accept : accept.Refuses ("\x7d" :: more) := listing_refuses rfl
  have others := (init_refuses rfl).orElse (accept.orElse transition)
  exact (states.orElse (alphabet.orElse others)).located

end Grammar

/-- Names can be written down, and the id is one for this kind of block. -/
structure Outline.Writable (o : Outline) : Prop where
  names : ∀ clause ∈ o.clauses, ∀ name ∈ clause.names, Name.Writable name
  id : match o.kind with
    | .trace => Decimal.isNumeral o.id.toList = true
    | .constraint => o.id ≠ "" ∧ o.id.toList.all Char.isAlphanum = true

theorem Clause.begins_words {clause : Clause}
    (writable : ∀ name ∈ clause.names, Name.Writable name) : Begins clause.words := by
  cases clause with
  | states => rfl
  | alphabet => rfl
  | init => rfl
  | accept => rfl
  | transition source symbol target =>
    exact Grammar.isSolid_of_legible (writable source List.mem_cons_self).1

namespace Grammar

open Phrase

theorem block_takes {kind : BlockKind} {symbol : Symbol} {id : Phrase Token} {o : Outline}
    (names : ∀ clause ∈ o.clauses, ∀ name ∈ clause.names, Name.Writable name)
    (sort : o.kind = kind) (idTakes : id.Takes [o.id] fun token => token.value = o.id)
    (legible : Name.defect? o.id = none) :
    (block kind symbol kind.word id).Takes o.words fun b => b.value.outline = o := by
  subst sort
  have items : ((many item consumes_item).closedBy (literal "\x7d")).Takes
      (o.clauses.flatMap Clause.words ++ ["\x7d"]) fun items =>
        items.map (fun item => item.value.clause) = o.clauses :=
    many_closedBy_takes _ (fun clause member => item_takes (names clause member))
      (fun clause member => Clause.begins_words (names clause member)) (literal_takes "\x7d") rfl
      fun _ => item_refuses
  have begins : Begins (o.clauses.flatMap Clause.words ++ ["\x7d"]) :=
    (starts_flatMap (fun clause member => Clause.begins_words (names clause member))
      (starts_cons rfl)).begins (by simp)
  have inner := (literal_takes "\x7b").before items begins
  have whole := (literal_takes o.kind.word).before (idTakes.andThen inner rfl) (isSolid_of_legible legible)
  have made : ((before (literal o.kind.word) (id.andThen body)).map fun part =>
      (⟨o.kind, part.1, part.2⟩ : Block)).Takes o.words fun b => b.outline = o := by
    apply Takes.map
    apply whole.mono
    rintro ⟨token, items⟩ ⟨sameId, sameItems⟩
    simp only at sameId sameItems
    simp only [Block.outline, sameId, sameItems]
  exact (made.named symbol).located

/-- The words of one kind of block never begin the other. -/
theorem block_refuses {kind : BlockKind} {symbol : Symbol} {text word : String} {id : Phrase Token}
    {more : List String} (h : apart text word = true) :
    (block kind symbol text id).Refuses (word :: more) :=
  ((((literal_refuses h).andThen _).map _ |>.map _).named _).located

theorem block_refuses_end {kind : BlockKind} {symbol : Symbol} {id : Phrase Token} :
    (block kind symbol kind.word id).Refuses [] := by
  have refused : (literal kind.word).Refuses [] := by
    intro c faces
    obtain ⟨offset, rest⟩ := c
    have empty : rest = [] := faces
    cases kind <;> simp [literal, BlockKind.word, empty, Cursor.drop?]
  exact (((refused.andThen _).map _ |>.map _).named _).located

theorem legible_of_alphanumeric {text : String} (nonempty : text ≠ "")
    (all : text.toList.all Char.isAlphanum = true) : Name.defect? text = none := by
  rw [List.all_eq_true] at all
  refine Name.defect?_eq_none.mpr ⟨nonempty, List.all_eq_true.mpr ?_⟩
  exact fun c member => Name.isNameChar_of_isAlphanum (all c member)

theorem legible_of_numeral {text : String} (numeral : Decimal.isNumeral text.toList = true) :
    Name.defect? text = none := by
  simp only [Decimal.isNumeral, Bool.and_eq_true, List.all_eq_true] at numeral
  apply legible_of_alphanumeric
  · rintro rfl
    cases numeral.1
  · rw [List.all_eq_true]
    exact fun c member => by simp [Char.isAlphanum, numeral.2 c member]

theorem number_takes {text : String} (numeral : Decimal.isNumeral text.toList = true) :
    number.Takes [text] fun token => token.value = text := by
  simp only [Decimal.isNumeral, Bool.and_eq_true, Bool.not_eq_true'] at numeral
  apply class_takes
  · rintro rfl
    cases numeral.1
  · exact numeral.2
  · intro c dark
    have outside := not_isNameChar_of_isGapChar dark
    simp_all [Name.isNameChar, Char.isAlphanum]

theorem ident_takes {text : String} (nonempty : text ≠ "")
    (all : text.toList.all Char.isAlphanum = true) :
    ident.Takes [text] fun token => token.value = text := by
  apply class_takes nonempty all
  intro c dark
  have outside := not_isNameChar_of_isGapChar dark
  simp_all [Name.isNameChar]

theorem anyBlock_takes {o : Outline} (writable : o.Writable) :
    (trace.orElse constraint).Takes o.words fun b => b.value.outline = o := by
  obtain ⟨names, id⟩ := writable
  cases kind : o.kind with
  | trace =>
    rw [kind] at id
    apply Takes.orElse
    exact block_takes names kind (number_takes id) (legible_of_numeral id)
  | constraint =>
    rw [kind] at id
    have refused (more : List String) : trace.Refuses (o.words ++ more) := by
      rw [Outline.words, kind]
      exact block_refuses rfl
    apply Refuses.orElse_takes refused
    exact block_takes names kind (ident_takes id.1 id.2) (legible_of_alphanumeric id.1 id.2)

theorem anyBlock_refuses_end : (trace.orElse constraint).Refuses [] := by
  have trace : trace.Refuses [] := block_refuses_end
  have constraint : constraint.Refuses [] := block_refuses_end
  exact trace.orElse constraint

end Grammar

theorem Outline.begins_words (o : Outline) : Begins o.words := by
  change isSolid o.kind.word = true
  cases o.kind <;> decide

theorem Outline.starts_words (outlines : List Outline) :
    Starts (outlines.flatMap Outline.words ++ []) :=
  Phrase.starts_flatMap (fun o _ => o.begins_words) fun _ head => by cases head

theorem readBlocks_eq_ok {text : String} {blocks : List (Located Block)} {c : Cursor}
    (h : Grammar.file.read (Cursor.ofString text) = some (blocks, c)) :
    readBlocks text = .ok blocks := by
  unfold readBlocks
  extract_lets start
  split
  next found =>
    cases h.symm.trans found
    rfl
  next missing => cases h.symm.trans missing

/-- However the words of some blocks are laid out, these blocks are read. -/
theorem readBlocks_spread {outlines : List Outline} {lead : Gap} {placed : List (String × Gap)}
    (writable : ∀ o ∈ outlines, o.Writable)
    (words : placed.map Prod.fst = outlines.flatMap Outline.words)
    (gaps : ∀ p ∈ placed.dropLast, p.2 ≠ []) :
    ∃ blocks, readBlocks (spread lead placed) = .ok blocks ∧
      blocks.map (fun b => b.value.outline) = outlines := by
  have starts : Starts (placed.map Prod.fst) := by
    simpa [words] using Outline.starts_words outlines
  have faces : Faces (outlines.flatMap Outline.words ++ [])
      (Cursor.ofString (spread lead placed)).skip.rest := by
    simpa [words] using faces_spread starts gaps
  obtain ⟨blocks, c', found, same, ended⟩ := Phrase.many_takes Grammar.consumes_anyBlock
    (fun o member => Grammar.anyBlock_takes (writable o member)) (fun o _ => o.begins_words)
    (fun _ head => by cases head) Grammar.anyBlock_refuses_end faces
  have last : Grammar.endOfInput.read c'.skip = some ((), c'.skip) := by
    change readEnd c'.skip = _
    have empty : c'.skip.rest = [] := ended
    simp [readEnd, empty]
  have whole : Grammar.file.read (Cursor.ofString (spread lead placed)) =
      some (blocks, c'.skip) := Phrase.read_before rfl (Phrase.read_closedBy found last)
  exact ⟨blocks, readBlocks_eq_ok whole, same⟩

end AlignPlan.Format
