import AlignPlan.Automaton.Id
import AlignPlan.Format.Grammar
import AlignPlan.Proofs.Validation.Names

/-! What can be read out of a file, whatever the text: every name in a block is one that
validation would let a state have. -/
namespace AlignPlan.Format

namespace Phrase

variable {α β : Type} {Good : α → Prop}

/-- All that is ever read as this phrase is good. -/
def Yields (p : Phrase α) (Good : α → Prop) : Prop :=
  ∀ c x c', p.read c = some (x, c') → Good x

theorem Yields.mono {p : Phrase α} {Better : α → Prop} (h : p.Yields Better)
    (weaken : ∀ x, Better x → Good x) : p.Yields Good :=
  fun c x c' found => weaken x (h c x c' found)

theorem yields_true (p : Phrase α) : p.Yields fun _ => True :=
  fun _ _ _ _ => trivial

theorem Yields.named {p : Phrase α} (h : p.Yields Good) (symbol : Symbol) :
    (named symbol p).Yields Good := h

theorem Yields.map {p : Phrase α} {f : α → β} {Image : β → Prop}
    (h : p.Yields fun x => Image (f x)) : (p.map f).Yields Image := by
  intro c y c' mapped
  obtain ⟨⟨x, after⟩, found, same⟩ := Option.map_eq_some_iff.mp mapped
  cases same
  exact h _ _ _ found

theorem Yields.located {p : Phrase α} (h : p.Yields Good) :
    p.located.Yields fun x => Good x.value := by
  intro c y c' mapped
  obtain ⟨⟨x, after⟩, found, same⟩ := Option.map_eq_some_iff.mp mapped
  cases same
  exact h _ _ _ found

theorem Yields.andThen {p : Phrase α} {q : Phrase β} {Next : β → Prop} (hp : p.Yields Good)
    (hq : q.Yields Next) : (p.andThen q).Yields fun xy => Good xy.1 ∧ Next xy.2 := by
  intro c xy c' found
  obtain ⟨between, first, second⟩ := readThen_eq_some.mp found
  exact ⟨hp _ _ _ first, hq _ _ _ second⟩

theorem Yields.before {q : Phrase α} (h : q.Yields Good) (p : Phrase Unit) :
    (p.before q).Yields Good :=
  (((yields_true p).andThen h).mono fun _ both => both.2).map

theorem Yields.closedBy {p : Phrase α} (h : p.Yields Good) (q : Phrase Unit) :
    (p.closedBy q).Yields Good :=
  ((h.andThen (yields_true q)).mono fun _ both => both.1).map

theorem Yields.orElse {p q : Phrase α} (hp : p.Yields Good) (hq : q.Yields Good) :
    (p.orElse q).Yields Good := by
  intro c x c' h
  rcases Option.or_eq_some_iff.mp h with found | ⟨_, found⟩
  · exact hp _ _ _ found
  · exact hq _ _ _ found

theorem Yields.readMore {p : Phrase α} (h : p.Yields Good) (consumes : p.Consumes) (c : Cursor) :
    ∀ x ∈ (p.readMore consumes c).1, Good x := by
  fun_induction Phrase.readMore p consumes c with
  | case1 => simp
  | case2 c x next found xs after more ih =>
    intro y member
    rcases List.mem_cons.mp member with rfl | member
    · exact h _ _ _ found
    · rw [more] at ih
      exact ih y member

theorem Yields.many {p : Phrase α} (h : p.Yields Good) (consumes : p.Consumes) :
    (p.many consumes).Yields fun xs => ∀ x ∈ xs, Good x := by
  intro c xs c' found
  simp only [Phrase.many] at found
  split at found
  next => cases found; simp
  next x next first =>
    cases found
    intro y member
    rcases List.mem_cons.mp member with rfl | member
    · exact h _ _ _ first
    · exact h.readMore consumes next y member

end Phrase

/-- All characters of the first part go on with the word. -/
theorem continues_of_mem_splitWhile {continues : Char → List Char → Bool} {text : List Char}
    {c : Char} (member : c ∈ (splitWhile continues text).1) : ∃ rest, continues c rest = true := by
  fun_induction splitWhile continues text with
  | case1 => simp at member
  | case2 d rest goesOn word after split ih =>
    rcases List.mem_cons.mp member with rfl | member
    · exact ⟨rest, goesOn⟩
    · rw [split] at ih
      exact ih member
  | case3 => simp at member

theorem yields_word {symbol : Symbol} {continues : Char → List Char → Bool} :
    (Grammar.word symbol continues).Yields fun token =>
      token.value ≠ "" ∧ ∀ c ∈ token.value.toList, ∃ rest, continues c rest = true := by
  intro c token c' found
  change readWord continues c = some (token, c') at found
  unfold readWord at found
  split at found
  next word rest split =>
    split at found
    next => cases found
    next nonempty =>
      cases found
      constructor
      · simpa using nonempty
      · intro d member
        apply continues_of_mem_splitWhile
        rw [split]
        simpa using member

theorem isNameChar_of_continuesName {c : Char} {rest : List Char}
    (h : continuesName c rest = true) : Name.isNameChar c = true := by
  simp only [continuesName, isWordChar, Bool.or_eq_true, Bool.and_eq_true] at h
  simp only [Name.isNameChar, Bool.or_eq_true]
  rcases h with word | ⟨dash, _⟩
  · exact .inl word
  · exact .inr dash

namespace Item

/-- All names in an item. -/
def tokens : Item → List Token
  | .states names => names
  | .alphabet names => names
  | .init name => [name]
  | .accept names => names
  | .transition source symbol target => [source, symbol, target]

/-- Every name is one that a state may have. -/
def Legible (item : Item) : Prop := ∀ token ∈ item.tokens, Name.defect? token.value = none

end Item

/-- A constraint has an id that it may have, and all names are legible. -/
structure Block.Legible (b : Block) : Prop where
  id : b.kind = .constraint → ∃ id, AutomatonId.ofString b.id.value = .ok id
  items : ∀ item ∈ b.items, item.value.Legible

namespace Grammar

open Phrase

theorem yields_name : name.Yields fun token => Name.defect? token.value = none := by
  have words : name.Yields fun token =>
      token.value ≠ "" ∧ ∀ c ∈ token.value.toList, ∃ rest, continuesName c rest = true :=
    yields_word
  refine words.mono ?_
  intro token ⟨nonempty, continues⟩
  refine Name.defect?_eq_none.mpr ⟨nonempty, List.all_eq_true.mpr ?_⟩
  intro c member
  obtain ⟨rest, goesOn⟩ := continues c member
  exact isNameChar_of_continuesName goesOn

theorem yields_names : names.Yields fun tokens => ∀ token ∈ tokens, Name.defect? token.value = none :=
  (yields_name.many _).closedBy _

theorem yields_transition : transition.Yields Item.Legible := by
  have parts := yields_name.andThen ((yields_name.andThen
    ((yields_name.closedBy (literal ";")).before (literal "->"))).before (literal "--"))
  refine (Yields.map (parts.mono ?_)).named _
  rintro ⟨source, symbol, target⟩ ⟨first, second, third⟩ token member
  simp only [Item.tokens, List.mem_cons, List.not_mem_nil, or_false] at member
  rcases member with rfl | rfl | rfl
  · exact first
  · exact second
  · exact third

theorem yields_item : item.Yields fun item => item.value.Legible := by
  have init : init.Yields Item.Legible := by
    refine (Yields.map ((yields_name.closedBy (literal ";")).before _ |>.mono ?_)).named _
    intro name legible token member
    rw [List.mem_singleton.mp member]
    exact legible
  have states : states.Yields Item.Legible := (Yields.map (yields_names.before _)).named _
  have alphabet : alphabet.Yields Item.Legible := (Yields.map (yields_names.before _)).named _
  have accept : accept.Yields Item.Legible := (Yields.map (yields_names.before _)).named _
  exact (states.orElse (alphabet.orElse (init.orElse (accept.orElse yields_transition)))).located

/-- What is read as the id of a constraint may be one. -/
theorem yields_ident : ident.Yields fun token =>
    ∃ id, AutomatonId.ofString token.value = .ok id := by
  have words : ident.Yields fun token => token.value ≠ "" ∧
      ∀ c ∈ token.value.toList, ∃ _ : List Char, c.isAlphanum = true := yields_word
  refine words.mono ?_
  intro token ⟨nonempty, alphanumeric⟩
  have some : token.value.toList ≠ [] := fun empty => nonempty (String.toList_eq_nil_iff.mp empty)
  have all : token.value.toList.all Char.isAlphanum = true :=
    List.all_eq_true.mpr fun c member => (alphanumeric c member).elim fun _ good => good
  exact ⟨⟨token.value, some, all⟩, by rw [AutomatonId.ofString, dif_neg some, dif_pos all]⟩

theorem yields_block (kind : BlockKind) (symbol : Symbol) (text : String) {id : Phrase Token}
    (hid : id.Yields fun token =>
      kind = .constraint → ∃ id, AutomatonId.ofString token.value = .ok id) :
    (block kind symbol text id).Yields fun block => block.value.Legible := by
  have items : body.Yields fun items => ∀ item ∈ items, item.value.Legible :=
    ((yields_item.many _).closedBy _).before _
  have parts : (before (literal text) (id.andThen body)).Yields fun part =>
      (⟨kind, part.1, part.2⟩ : Block).Legible :=
    ((hid.andThen items).mono fun _ both => ⟨both.1, both.2⟩).before _
  have whole : ((before (literal text) (id.andThen body)).map fun part =>
      (⟨kind, part.1, part.2⟩ : Block)).Yields Block.Legible := parts.map
  exact (whole.named symbol).located

theorem yields_file : file.Yields fun blocks => ∀ block ∈ blocks, block.value.Legible := by
  have trace : trace.Yields fun block => block.value.Legible :=
    yields_block _ _ _ fun _ _ _ _ other => nomatch other
  have constraint : constraint.Yields fun block => block.value.Legible :=
    yields_block _ _ _ (yields_ident.mono fun _ valid _ => valid)
  exact (((trace.orElse constraint).many _).closedBy _ |>.before _).named _

end Grammar

theorem legible_of_readBlocks {text : String} {blocks : List (Located Block)}
    (h : readBlocks text = .ok blocks) : ∀ block ∈ blocks, block.value.Legible := by
  unfold readBlocks at h
  simp only at h
  split at h
  next blocks after found =>
    cases h
    exact Grammar.yields_file _ _ _ found
  next => cases h

end AlignPlan.Format
