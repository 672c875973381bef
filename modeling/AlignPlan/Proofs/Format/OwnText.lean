import AlignPlan.Proofs.Format.Clauses
import AlignPlan.Proofs.Format.Language
import AlignPlan.Proofs.Format.Locality

/-! Items and blocks have texts of their own: each is read off its text alone, and no two kinds of
them begin alike. What tells a transition from an item that begins with a word of the grammar are
its dashes, which no list of names goes past. -/
namespace AlignPlan.Format

namespace Grammar

open Phrase

/-- Whether a character goes on with a word is up to the next one only if it is a dash. -/
def Peeks (continues : Char → List Char → Bool) : Prop :=
  ∀ c a b, (c = '-' → a.head? = b.head?) → continues c a = continues c b

section Words

variable {symbol : Symbol} {continues : Char → List Char → Bool} {text : String}

theorem splitWhile_of_same (peeks : Peeks continues) {word rest rest' : List Char}
    (same : Sight.opening.Same rest' rest)
    (split : splitWhile continues (word ++ rest) = (word, rest)) :
    splitWhile continues (word ++ rest') = (word, rest') := by
  induction word with
  | nil =>
    cases rest' with
    | nil => rfl
    | cons c after' =>
      obtain ⟨after, rfl⟩ : ∃ after, rest = c :: after := List.head?_eq_some_iff.mp same.1.symm
      have alike : continues c after' = continues c after := by
        apply peeks
        rintro rfl
        exact same.2 rfl
      simp only [List.nil_append, splitWhile, alike] at split ⊢
      split at split
      next => cases (Prod.mk.inj split).1
      next stops => simp [stops]
  | cons c word ih =>
    have alike : continues c (word ++ rest') = continues c (word ++ rest) := by
      apply peeks
      intro
      cases word with
      | nil => exact same.1
      | cons => rfl
    simp only [List.cons_append, splitWhile, alike] at split ⊢
    split at split
    next goesOn =>
      have others : splitWhile continues (word ++ rest) = (word, rest) := by
        obtain ⟨first, second⟩ := Prod.mk.inj split
        exact Prod.ext (List.cons.inj first).2 second
      rw [if_pos goesOn, ih others]
    next => cases (Prod.mk.inj split).1

theorem readWord_eq_some_iff {c c' : Cursor} {token : Token} :
    readWord continues c = some (token, c') ↔ ∃ word, word ≠ [] ∧ c.rest = word ++ c'.rest ∧
      splitWhile continues c.rest = (word, c'.rest) ∧
      token = ⟨String.ofList word, c.offset, c.offset + byteLength word⟩ ∧
      c'.offset = c.offset + byteLength word := by
  have whole := splitWhile_append continues c.rest
  obtain ⟨offset', rest'⟩ := c'
  simp only [readWord]
  generalize splitWhile continues c.rest = parts at whole
  obtain ⟨word, rest⟩ := parts
  simp only at whole ⊢
  constructor
  · intro h
    split at h
    next => cases h
    next some =>
      cases h
      exact ⟨word, by simpa using some, whole.symm, rfl, rfl, rfl⟩
  · rintro ⟨word', some, _, split, rfl, rfl⟩
    cases split
    rw [if_neg (by simpa using some)]

theorem local_word (peeks : Peeks continues)
    (dense : ∀ c rest, continues c rest = true → isGapChar c = false) :
    (word symbol continues).Local .opening := by
  intro c token c' _ found
  obtain ⟨text, some, whole, split, rfl, stop⟩ := readWord_eq_some_iff.mp found
  refine ⟨text, ⟨String.ofList text, 0, byteLength text⟩, whole, rfl, ?_,
    fun a b alike => alike.append text, ?_⟩
  · obtain ⟨d, others, rfl⟩ := List.exists_cons_of_ne_nil some
    obtain ⟨rest, goesOn⟩ : ∃ rest, continues d rest = true := by
      have listed : d ∈ (splitWhile continues c.rest).1 := by
        rw [split]
        exact List.mem_cons_self
      exact continues_of_mem_splitWhile listed
    simp [Solid, dense d rest goesOn]
  · intro offset rest' alike
    rw [whole] at split
    exact readWord_eq_some_iff.mpr ⟨text, some, rfl, splitWhile_of_same peeks alike split, rfl, rfl⟩

theorem readKeyword_eq_some_iff {c c' : Cursor} : readKeyword text c = some ((), c') ↔
    c.drop? text.toList = some c' ∧ c'.rest.head?.any isWordChar = false := by
  unfold readKeyword
  cases dropped : c.drop? text.toList with
  | none => simp
  | some after =>
    simp only [Option.some.injEq]
    constructor
    · intro h
      split at h
      next => cases h
      next boundary =>
        cases h
        exact ⟨rfl, Bool.eq_false_iff.mpr boundary⟩
    · rintro ⟨rfl, boundary⟩
      simp [boundary]

theorem local_keyword (solid : isSolid text = true) : (keyword symbol text).Local .opening := by
  intro c u c' _ found
  obtain ⟨dropped, boundary⟩ := readKeyword_eq_some_iff.mp found
  refine ⟨text.toList, (), Cursor.rest_of_drop? dropped, rfl, solid,
    fun a b alike => alike.append _, ?_⟩
  intro offset rest' alike
  refine readKeyword_eq_some_iff.mpr ⟨Cursor.drop?_append_eq _ _ _, ?_⟩
  rw [alike.1]
  exact boundary

/-- A fixed text that is more than a dash settles how a word before it ends. -/
theorem local_literal (text : String) (solid : isSolid text = true) (settled : text ≠ "-") :
    (literal text).Local .nothing := by
  intro c u c' _ found
  obtain ⟨after, dropped, same⟩ := Option.map_eq_some_iff.mp found
  cases same
  refine ⟨text.toList, (), Cursor.rest_of_drop? dropped, rfl, solid, ?_, ?_⟩
  · intro a b _
    match spelled : text.toList with
    | [] => simp [isSolid, spelled] at solid
    | [c] =>
      refine ⟨rfl, fun dash => absurd ?_ settled⟩
      cases dash
      exact String.toList_inj.mp spelled
    | _ :: _ :: _ => exact ⟨rfl, fun _ => rfl⟩
  · intro offset rest' _
    exact Option.map_eq_some_iff.mpr ⟨_, Cursor.drop?_append_eq _ _ _, rfl⟩

end Words

theorem dense_of_isNameChar {c : Char} (legible : Name.isNameChar c = true) :
    isGapChar c = false := by
  apply Bool.eq_false_iff.mpr
  intro gap
  rw [not_isNameChar_of_isGapChar gap] at legible
  cases legible

theorem local_name : name.Local .opening := by
  apply local_word
  · intro c a b next
    by_cases dash : c = '-'
    · simp only [continuesName, next dash]
    · have other : (c == '-') = false := beq_false_of_ne dash
      simp only [continuesName, other, Bool.false_and]
  · intro c rest goesOn
    exact dense_of_isNameChar (isNameChar_of_continuesName goesOn)

theorem local_class {symbol : Symbol} {class' : Char → Bool}
    (legible : ∀ c, class' c = true → Name.isNameChar c = true) :
    (word symbol fun c _ => class' c).Local .opening :=
  local_word (fun _ _ _ _ => rfl) fun c _ member => dense_of_isNameChar (legible c member)

theorem local_number : number.Local .opening :=
  local_class fun c digit => Name.isNameChar_of_isAlphanum (by simp [Char.isAlphanum, digit])

theorem local_ident : ident.Local .opening :=
  local_class fun _ => Name.isNameChar_of_isAlphanum

section Apart

variable {symbol symbol' : Symbol} {a b : String}

theorem rest_of_literal {c c' : Cursor} (found : (literal a).read c = some ((), c')) :
    c.rest = a.toList ++ c'.rest := by
  obtain ⟨after, dropped, same⟩ := Option.map_eq_some_iff.mp found
  cases same
  exact Cursor.rest_of_drop? dropped

theorem literal_apart (h : apart a b = true) : (literal a).Apart (literal b) := by
  refine apart_of_read fun c _ _ second => ?_
  simp only [literal, drop?_eq_none_of_apart h c _ (rest_of_literal second), Option.map_none]

theorem keyword_apart_literal (h : apart a b = true) : (keyword symbol a).Apart (literal b) := by
  refine apart_of_read fun c _ _ second => ?_
  change readKeyword a c = none
  simp only [readKeyword, drop?_eq_none_of_apart h c _ (rest_of_literal second)]

theorem keyword_apart (h : apart a b = true) : (keyword symbol a).Apart (keyword symbol' b) := by
  refine apart_of_read fun c _ _ second => ?_
  have dropped := (readKeyword_eq_some_iff.mp second).1
  change readKeyword a c = none
  simp only [readKeyword, drop?_eq_none_of_apart h c _ (Cursor.rest_of_drop? dropped)]

/-- A word does not begin where its first character would have to end it. -/
theorem word_apart_literal {continues : Char → List Char → Bool} {first : Char}
    {others : List Char} (start : a.toList = first :: others)
    (stops : ∀ rest, continues first (others ++ rest) = false) :
    (word symbol continues).Apart (literal a) := by
  refine apart_of_read fun c _ _ second => ?_
  have whole := rest_of_literal second
  change readWord continues c = none
  simp [readWord, whole, start, splitWhile, stops]

theorem name_apart_semicolon : name.Apart (literal ";") := word_apart_literal rfl fun _ => rfl

theorem name_apart_dashes : name.Apart (literal "--") := word_apart_literal rfl fun _ => rfl

end Apart

/-- Two dashes stand here or after a name. -/
def Dashed (c : Cursor) : Prop :=
  ((literal "--").read c).isSome ∨
    ∃ token next, name.read c = some (token, next) ∧ ((literal "--").read next.skip).isSome

theorem dashed_of_transition {c : Cursor} (found : (transition.read c).isSome) : Dashed c := by
  obtain ⟨⟨x, after⟩, found⟩ := Option.isSome_iff_exists.mp found
  obtain ⟨⟨⟨token, y⟩, c'⟩, both, _⟩ := Option.map_eq_some_iff.mp found
  obtain ⟨next, first, second⟩ := readThen_eq_some.mp both
  obtain ⟨⟨⟨u, z⟩, c''⟩, dashes, _⟩ := Option.map_eq_some_iff.mp second
  obtain ⟨inner, dashes, _⟩ := readThen_eq_some.mp dashes
  exact .inr ⟨token, next, first, by rw [dashes]; rfl⟩

theorem refused_of_dashes {c : Cursor} (dashes : ((literal "--").read c).isSome) :
    name.read c = none ∧ (literal ";").read c = none := by
  obtain ⟨found, dashes⟩ := Option.isSome_iff_exists.mp dashes
  have unread : (literal "--").read c ≠ none := by simp [dashes]
  have semicolon : (literal ";").Apart (literal "--") := literal_apart rfl
  exact ⟨(name_apart_dashes c).resolve_right unread, (semicolon c).resolve_right unread⟩

/-- No list of names goes past two dashes. -/
theorem names_refuse_dashes {c : Cursor} (still : c.skip = c) (dashed : Dashed c) :
    names.read c = none := by
  cases found : names.read c with
  | none => rfl
  | some result =>
    obtain ⟨xs, c'⟩ := result
    rw [← still] at found
    obtain ⟨between, repeats, closed⟩ := (read_many_closedBy _ name_apart_semicolon).mp found
    exfalso
    rcases dashed with here | ⟨token, next, first, there⟩
    · obtain ⟨noName, noEnd⟩ := refused_of_dashes here
      cases repeats with
      | done => simp [still, noEnd] at closed
      | more read _ => simp [still, noName] at read
    · obtain ⟨noName, noEnd⟩ := refused_of_dashes there
      cases repeats with
      | done =>
        rw [still] at closed
        exact (name_apart_semicolon c).elim (by simp [first]) (by simp [closed])
      | more read others =>
        rw [still, first] at read
        cases read
        cases others with
        | done => simp [noEnd] at closed
        | more again _ => simp [noName] at again

theorem name_closedBy_refuses_dashes {c : Cursor} (dashed : Dashed c) :
    (name.closedBy (literal ";")).read c = none := by
  cases found : (name.closedBy (literal ";")).read c with
  | none => rfl
  | some result =>
    obtain ⟨between, read, closed⟩ := read_closedBy_iff.mp found
    exfalso
    rcases dashed with here | ⟨token, next, first, there⟩
    · simp [(refused_of_dashes here).1] at read
    · rw [first] at read
      cases read
      simp [(refused_of_dashes there).2] at closed

theorem splitWhile_letters {letters : List Char} (all : letters.all isWordChar = true)
    (rest : List Char) : splitWhile continuesName (letters ++ rest) =
      (letters ++ (splitWhile continuesName rest).1, (splitWhile continuesName rest).2) := by
  induction letters with
  | nil => rfl
  | cons c letters ih =>
    obtain ⟨letter, others⟩ := Bool.and_eq_true_iff.mp all
    have goesOn : continuesName c (letters ++ rest) = true := by simp [continuesName, letter]
    rw [List.cons_append, splitWhile, if_pos goesOn, ih others]
    rfl

/-- Where a word of the grammar is read off the beginning of a name, what follows the word is
dashed as well. -/
theorem dashed_of_keyword {symbol : Symbol} {text : String} {c c' : Cursor}
    (nonempty : text.toList ≠ []) (letters : text.toList.all isWordChar = true)
    (dashed : Dashed c) (found : (keyword symbol text).read c = some ((), c')) :
    Dashed c'.skip := by
  have dropped := (readKeyword_eq_some_iff.mp found).1
  have whole := Cursor.rest_of_drop? dropped
  rcases dashed with here | ⟨token, next, first, there⟩
  · obtain ⟨result, dashes⟩ := Option.isSome_iff_exists.mp here
    have same := (rest_of_literal dashes).symm.trans whole
    obtain ⟨d, others, spelled⟩ := List.exists_cons_of_ne_nil nonempty
    rw [spelled] at same letters
    have dash : '-' = d := (List.cons.inj same).1
    subst dash
    exact absurd (Bool.and_eq_true_iff.mp letters).1 (by decide)
  · obtain ⟨word, _, _, split, _, stop⟩ := readWord_eq_some_iff.mp first
    rw [whole, splitWhile_letters letters] at split
    obtain ⟨rfl, rest⟩ := Prod.mk.inj split
    have start : c'.offset = c.offset + byteLength text.toList := by
      have again := Cursor.drop?_append_eq c.offset text.toList c'.rest
      rw [← whole, show (⟨c.offset, c.rest⟩ : Cursor) = c from rfl, dropped] at again
      exact congrArg Cursor.offset (Option.some.inj again)
    have parts := splitWhile_append continuesName c'.rest
    rw [byteLength_append, ← Nat.add_assoc, ← start] at stop
    cases cut : (splitWhile continuesName c'.rest).1 with
    | nil =>
      -- The name is the word of the grammar and no more.
      have same : next = c' := by
        rw [cut] at stop parts
        exact Cursor.ext stop (rest.symm.trans parts)
      exact .inl (same ▸ there)
    | cons d others =>
      rw [cut] at stop parts
      have goesOn : d ∈ (splitWhile continuesName c'.rest).1 := by
        rw [cut]
        exact List.mem_cons_self
      obtain ⟨_, legible⟩ := continues_of_mem_splitWhile goesOn
      have solid : Solid (d :: others) := by
        simp [Solid, dense_of_isNameChar (isNameChar_of_continuesName legible)]
      have still : c'.skip = c' := by
        have skipped := Cursor.skip_solid solid c'.offset next.rest
        rwa [← rest, parts] at skipped
      rw [still]
      refine .inr ⟨_, next, readWord_eq_some_iff.mpr ⟨d :: others, List.cons_ne_nil _ _, ?_, ?_,
        rfl, stop⟩, there⟩
      · rw [← rest, parts]
      · rw [← rest, ← cut]

theorem keyword_before_apart_transition {α : Type} {symbol : Symbol} {text : String}
    {q : Phrase α} (nonempty : text.toList ≠ []) (letters : text.toList.all isWordChar = true)
    (refuses : ∀ c, c.skip = c → Dashed c → q.read c = none) :
    ((keyword symbol text).before q).Apart transition := by
  refine apart_of_read fun c _ _ second => ?_
  have dashed := dashed_of_transition (c := c) (by simp [second])
  apply Option.map_eq_none_iff.mpr
  simp only [Phrase.andThen, readThen]
  cases found : (keyword symbol text).read c with
  | none => rfl
  | some first =>
    have later := dashed_of_keyword nonempty letters dashed found
    simp only [refuses first.2.skip first.2.skip_skip later]

theorem local_semicolon : (literal ";").Local .nothing := local_literal _ rfl (by decide)

theorem local_names : names.Local .nothing :=
  local_name.many_closedBy local_semicolon name_apart_semicolon _

section Items

variable {α β : Type} {symbol symbol' : Symbol} {a b : String} {p : Phrase α} {q : Phrase β}
  {f : α → Item} {g : β → Item}

/-- Items that are led by different words. -/
theorem led_apart (h : apart a b = true) : ((before (keyword symbol a) p).map f).Apart
    ((before (keyword symbol' b) q).map g) := by
  have words : (keyword symbol a).Apart (keyword symbol' b) := keyword_apart h
  have first := ((words.andThen p).map Prod.snd).map f
  exact (((first.symm.andThen q).map Prod.snd).map g).symm

theorem led_apart_literal (h : apart a b = true) :
    ((before (keyword symbol a) p).map f).Apart (literal b) :=
  (((keyword_apart_literal h).andThen p).map Prod.snd).map f

theorem local_led [Movable α] (solid : isSolid a = true) (hp : p.Local .nothing)
    (places : ∀ n x, f (move n x) = move n (f x)) :
    ((before (keyword symbol a) p).map f).Local .nothing :=
  ((local_keyword solid).before hp).map places

end Items

theorem local_transition : transition.Local .nothing := by
  have arrow := (local_literal "->" rfl (by decide)).widen
  have dashes := (local_literal "--" rfl (by decide)).widen
  have last := local_name.closedBy local_semicolon
  exact ((local_name.andThen (dashes.before (local_name.andThen (arrow.before last)))).map
    fun _ _ => rfl).named _

theorem states_apart : states.Apart (alphabet.orElse (init.orElse (accept.orElse transition))) := by
  refine Apart.orElse_right (led_apart rfl) (Apart.orElse_right (led_apart rfl)
    (Apart.orElse_right (led_apart rfl) ?_))
  exact (keyword_before_apart_transition (by decide) rfl fun _ => names_refuse_dashes).map _

theorem alphabet_apart : alphabet.Apart (init.orElse (accept.orElse transition)) := by
  refine Apart.orElse_right (led_apart rfl) (Apart.orElse_right (led_apart rfl) ?_)
  exact (keyword_before_apart_transition (by decide) rfl fun _ => names_refuse_dashes).map _

theorem init_apart : init.Apart (accept.orElse transition) := by
  refine Apart.orElse_right (led_apart rfl) ?_
  exact (keyword_before_apart_transition (by decide) rfl
    fun _ _ => name_closedBy_refuses_dashes).map _

theorem accept_apart : accept.Apart transition :=
  (keyword_before_apart_transition (by decide) rfl fun _ => names_refuse_dashes).map _

theorem local_item : item.Local .nothing := by
  have states : states.Local .nothing := (local_led rfl local_names fun _ _ => rfl).named _
  have alphabet : alphabet.Local .nothing := (local_led rfl local_names fun _ _ => rfl).named _
  have init : init.Local .nothing :=
    (local_led rfl (local_name.closedBy local_semicolon) fun _ _ => rfl).named _
  have accept : accept.Local .nothing := (local_led rfl local_names fun _ _ => rfl).named _
  have others := init.orElse (accept.orElse local_transition accept_apart) init_apart
  exact (states.orElse (alphabet.orElse others alphabet_apart) states_apart).located

theorem item_apart_close : item.Apart (literal "\x7d") := by
  have name : name.Apart (literal "\x7d") := word_apart_literal rfl fun _ => rfl
  have transition : transition.Apart (literal "\x7d") := ((name.andThen _).map _).named _
  have states : states.Apart (literal "\x7d") := led_apart_literal rfl
  have alphabet : alphabet.Apart (literal "\x7d") := led_apart_literal rfl
  have init : init.Apart (literal "\x7d") := led_apart_literal rfl
  have accept : accept.Apart (literal "\x7d") := led_apart_literal rfl
  exact (states.orElse (alphabet.orElse (init.orElse (accept.orElse transition)))).located

/-- A block up to its items. -/
def opening (text : String) (id : Phrase Token) : Phrase Token :=
  before (literal text) (id.closedBy (literal "\x7b"))

theorem local_lead (kind : BlockKind) : (literal kind.word).Local .nothing := by
  cases kind <;> exact local_literal _ rfl (by decide)

theorem local_openBracket : (literal "\x7b").Local .nothing := local_literal _ rfl (by decide)

theorem local_closeBracket : (literal "\x7d").Local .nothing := local_literal _ rfl (by decide)

theorem local_opening (kind : BlockKind) {id : Phrase Token} (hid : id.Local .opening) :
    (opening kind.word id).Local .nothing :=
  (local_lead kind).widen.before (hid.closedBy local_openBracket)

/-- A block is its opening, its items and a bracket. -/
theorem read_block_iff {kind : BlockKind} {symbol : Symbol} {text : String} {id : Phrase Token}
    {c c' : Cursor} {b : Located Block} : (block kind symbol text id).read c = some (b, c') ↔
      ∃ token inside after, (opening text id).read c = some (token, inside) ∧
        item.Repeats inside b.value.items after ∧
        (literal "\x7d").read after.skip = some ((), c') ∧
        b = ⟨⟨kind, token, b.value.items⟩, c.offset, c'.offset⟩ := by
  have inner {d : Cursor} {items : List (Located Item)} : body.read d = some (items, c') ↔
      ∃ inside after, (literal "\x7b").read d = some ((), inside) ∧
        item.Repeats inside items after ∧ (literal "\x7d").read after.skip = some ((), c') := by
    simp only [body, read_before_iff, read_many_closedBy consumes_item item_apart_close,
      exists_and_left]
  rw [block, read_located_iff, read_named]
  simp only [read_map_iff, read_before_iff, opening, read_closedBy_iff]
  constructor
  · rintro ⟨⟨⟨token, items⟩, ⟨lead, word, rest⟩, made⟩, start, stop⟩
    obtain ⟨named, number, open'⟩ := readThen_eq_some.mp rest
    obtain ⟨inside, after, bracket, repeats, closed⟩ := inner.mp open'
    rw [← made]
    refine ⟨token, inside, after, ⟨lead, word, named, number, bracket⟩, repeats, closed, ?_⟩
    rw [← start, ← stop, made]
  · rintro ⟨token, inside, after, ⟨lead, word, named, number, bracket⟩, repeats, closed, same⟩
    have open' := inner.mpr ⟨inside, after, bracket, repeats, closed⟩
    refine ⟨⟨(token, b.value.items), ⟨lead, word, readThen_eq_some.mpr ⟨named, number, open'⟩⟩, ?_⟩,
      ?_, ?_⟩
    · rw [same]
    · rw [same]
    · rw [same]

theorem local_block (kind : BlockKind) (symbol : Symbol) {id : Phrase Token}
    (hid : id.Local .opening) : (block kind symbol kind.word id).Local .nothing := by
  have items :=
    local_item.widen.many_closedBy local_closeBracket item_apart_close consumes_item
  have body : body.Local .nothing := local_openBracket.widen.before items
  have whole := (local_lead kind).widen.before (hid.andThen body)
  exact ((whole.map fun _ _ => rfl).named _).located

theorem trace_apart_constraint : trace.Apart constraint := by
  have words : (literal "trace").Apart (literal "constraint") := literal_apart rfl
  have first : trace.Apart (literal "constraint") :=
    ((((words.andThen _).map _).map _).named _).located
  exact (((((first.symm.andThen _).map _).map _).named _).located).symm

/-- Any of the blocks of a file. -/
abbrev anyBlock : Phrase (Located Block) := trace.orElse constraint

theorem local_anyBlock : anyBlock.Local .nothing :=
  (local_block .trace .trace local_number).orElse
    (local_block .constraint .constraint local_ident) trace_apart_constraint

theorem readEnd_eq_some_iff {c c' : Cursor} :
    endOfInput.read c = some ((), c') ↔ c' = c ∧ c.rest = [] := by
  change readEnd c = _ ↔ _
  unfold readEnd
  split
  next ended =>
    simp only [Option.some.injEq, Prod.mk.injEq, true_and, List.isEmpty_iff.mp ended, and_true]
    exact eq_comm
  next going =>
    simp only [reduceCtorEq, false_iff, not_and]
    exact fun _ ended => going (List.isEmpty_iff.mpr ended)

theorem anyBlock_apart_end : anyBlock.Apart endOfInput :=
  apart_of_read fun c _ _ ended => anyBlock_refuses_end c (readEnd_eq_some_iff.mp ended).2

theorem read_file_iff {c c' : Cursor} {blocks : List (Located Block)} :
    file.read c = some (blocks, c') ↔
      ∃ after, anyBlock.Repeats c blocks after ∧ after.skip = c' ∧ c'.rest = [] := by
  have opened : file.read c = some (blocks, c') ↔
      ((many anyBlock consumes_anyBlock).closedBy endOfInput).read c.skip = some (blocks, c') := by
    change (before here _).read c = _ ↔ _
    simp [read_before_iff, here]
  simp only [opened, read_many_closedBy consumes_anyBlock anyBlock_apart_end, readEnd_eq_some_iff]
  constructor
  · rintro ⟨after, repeats, rfl, ended⟩
    exact ⟨after, repeats, rfl, ended⟩
  · rintro ⟨after, repeats, rfl, ended⟩
    exact ⟨after, repeats, rfl, ended⟩

end Grammar

theorem readBlocks_eq_ok_iff_read {text : String} {blocks : List (Located Block)} :
    readBlocks text = .ok blocks ↔
      ∃ c', Grammar.file.read (Cursor.ofString text) = some (blocks, c') := by
  constructor
  · intro h
    unfold readBlocks at h
    extract_lets start at h
    split at h
    next after found =>
      cases h
      exact ⟨_, found⟩
    next => cases h
  · rintro ⟨c', found⟩
    exact readBlocks_eq_ok found

theorem readBlocks_eq_error {text : String} (h : Grammar.file.read (Cursor.ofString text) = none) :
    readBlocks text = .error ((Grammar.file.trail (Cursor.ofString text) Trail.start).offset,
      (Grammar.file.trail (Cursor.ofString text) Trail.start).symbols) := by
  unfold readBlocks
  extract_lets start
  split
  next found => cases h.symm.trans found
  next => rfl

/-- A file is read when its blocks can be read one after the other up to its end. -/
theorem readBlocks_eq_ok_iff {text : String} {blocks : List (Located Block)} :
    readBlocks text = .ok blocks ↔ ∃ after,
      Grammar.anyBlock.Repeats (Cursor.ofString text) blocks after ∧ after.skip.rest = [] := by
  simp only [readBlocks_eq_ok_iff_read, Grammar.read_file_iff]
  constructor
  · rintro ⟨_, after, repeats, rfl, ended⟩
    exact ⟨after, repeats, ended⟩
  · rintro ⟨after, repeats, ended⟩
    exact ⟨_, after, repeats, rfl, ended⟩

end AlignPlan.Format
