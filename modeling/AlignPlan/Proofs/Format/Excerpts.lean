import AlignPlan.Proofs.Format.FileOrder
import AlignPlan.Proofs.Format.ItemOrder
import AlignPlan.Proofs.Format.Places

/-! What the places in a document delimit. The place of a declaration is that of the text that
makes it: there the text can be cut, and the part declares by itself what it declares in the file.
The places of transitions lie in it, one for each of them and in their order. -/
namespace AlignPlan

open Format

/-- The text between the two ends of a span. -/
def Span.Delimits (span : Span) (text own : String) : Prop :=
  ∃ before after, text = before ++ own ++ after ∧ span.start = before.utf8ByteSize ∧
    span.stop = before.utf8ByteSize + own.utf8ByteSize

theorem Span.delimits_of_toList {span : Span} {text : String} {before own after : List Char}
    (whole : text.toList = before ++ own ++ after) (start : span.start = byteLength before)
    (stop : span.stop = span.start + byteLength own) : span.Delimits text (String.ofList own) := by
  refine ⟨String.ofList before, String.ofList after, ?_, ?_, ?_⟩
  · rw [← String.ofList_append, ← String.ofList_append, ← whole, String.ofList_toList]
  · rw [utf8ByteSize_eq, String.toList_ofList, start]
  · rw [utf8ByteSize_eq, utf8ByteSize_eq, String.toList_ofList, String.toList_ofList, stop, start]

/-- Each span ends before all later ones begin. -/
def Span.Ordered (spans : List Span) : Prop := spans.Pairwise fun s t => s.stop ≤ t.start

def Format.Item.isTransition : Item → Bool
  | .transition _ _ _ => true
  | _ => false

/-- The place of an item or a block. -/
def Format.Located.span {α : Type} (x : Located α) (file : Nat) : Span := ⟨x.start, x.stop, file⟩

theorem recordAt_length {α : Type} (ys : List (Option α)) (x : α) :
    recordAt ys ys.length x = ys ++ [some x] := by
  induction ys with
  | nil => rfl
  | cons y ys ih => exact congrArg (y :: ·) ih

namespace Automaton

/-- Every transition has a place of its own strictly within the span, and they are in order. -/
def PlacedIn (a : Automaton) (span : Span) : Prop :=
  ∃ spans : List Span, spans.length = a.transitions.length ∧
    (∀ i, a.transitionSpan? i = spans[i]?) ∧ Span.Ordered spans ∧
    ∀ s ∈ spans, s.file = span.file ∧ span.start < s.start ∧ s.start < s.stop ∧ s.stop < span.stop

/-- The spans are those of the transitions, one by one. -/
structure Records (a : Automaton) (spans : List Span) : Prop where
  known : a.transitionSpans = spans.map some
  count : spans.length = a.transitions.length

/-- The places of transitions among some items. -/
def transitionPlaces (file : Nat) (items : List (Located Item)) : List Span :=
  (items.filter fun item => item.value.isTransition).map fun item => item.span file

variable {a b : Automaton} {file : Nat} {spans : List Span}

theorem transitionPlaces_append (file : Nat) (items more : List (Located Item)) :
    transitionPlaces file (items ++ more) =
      transitionPlaces file items ++ transitionPlaces file more := by
  simp [transitionPlaces]

theorem transitionPlaces_cons (file : Nat) (item : Located Item) (items : List (Located Item)) :
    transitionPlaces file (item :: items) =
      transitionPlaces file [item] ++ transitionPlaces file items :=
  transitionPlaces_append file [item] items

theorem Records.transitionSpan?_eq (h : a.Records spans) (i : Nat) :
    a.transitionSpan? i = spans[i]? := by
  rw [transitionSpan?, h.known, List.getElem?_map]
  cases spans[i]? <;> rfl

theorem Records.keep (h : a.Records spans) (places : b.transitionSpans = a.transitionSpans)
    (transitions : b.transitions = a.transitions) : b.Records (spans ++ []) := by
  rw [List.append_nil]
  exact ⟨places.trans h.known, by rw [transitions, h.count]⟩

theorem Records.apply {item : Located Item} (h : a.Records spans)
    (applied : a.apply file item = .ok b) :
    b.Records (spans ++ transitionPlaces file [item]) := by
  obtain ⟨value, start, stop⟩ := item
  cases value with
  | states names =>
    cases applied
    exact h.keep rfl rfl
  | alphabet names =>
    rw [apply_alphabet rfl] at applied
    cases applied
    exact h.keep rfl rfl
  | init name =>
    simp only [Automaton.apply] at applied
    split at applied
    next => cases applied
    next =>
      split at applied <;> cases applied
      exact h.keep rfl rfl
  | accept names =>
    obtain ⟨_, rfl⟩ := acceptNamed_eq_ok_iff.mp applied
    exact h.keep rfl rfl
  | transition source symbol target =>
    simp only [Automaton.apply] at applied
    split at applied
    next => cases applied
    next => cases applied
    next =>
      cases applied
      have lengths : a.transitions.length = a.transitionSpans.length := by
        rw [h.known, List.length_map, h.count]
      constructor
      · change recordAt a.transitionSpans a.transitions.length _ = _
        rw [lengths, recordAt_length, h.known, List.map_append]
        rfl
      · change (spans ++ [_]).length = (a.transitions ++ [_]).length
        rw [List.length_append, List.length_append, h.count]
        rfl

theorem Records.applyAll {items : List (Located Item)} (h : a.Records spans)
    (applied : a.applyAll file items = .ok b) :
    b.Records (spans ++ transitionPlaces file items) := by
  fun_induction Automaton.applyAll file a items generalizing spans with
  | case1 =>
    cases applied
    exact h.keep rfl rfl
  | case2 => cases applied
  | case3 a item items next first ih =>
    rw [transitionPlaces_cons, ← List.append_assoc]
    exact ih (h.apply first) applied

/-- A block records the places of just its transitions. -/
theorem records_of_ofBlock {name : String} {block : Located Block}
    (h : ofBlock file name block = .ok a) :
    a.Records (transitionPlaces file block.value.items) := by
  have declared : (block.value.items.foldl declareStates
      ((empty name).setSpan (block.span file))).Records [] := by
    rw [foldl_declareStates]
    constructor <;> rfl
  exact declared.applyAll h

end Automaton

/-- A declaration with its place: the text there is all it takes to declare the same, except that
places count from where that text begins. -/
structure Declaration.StandsAt (file : Nat) (text : String) (e : Declaration) (span : Span) :
    Prop where
  recorded : e.automaton.span = some span
  inFile : span.file = file
  nonempty : span.start < span.stop
  transitions : e.automaton.PlacedIn span
  alone : ∃ own e', span.Delimits text own ∧
    Document.parse file own = .ok (Document.ofDeclarations [e']) ∧ e = move span.start e'

section Blocks

variable {file : Nat} {block : Located Block} {e : Declaration} {c c' : Cursor}

/-- What a block declares in a place it would declare in any other. -/
theorem Declares.exists_of_move {n : Nat} (h : Declares file (Format.move n block) e) :
    ∃ e', Declares file block e' ∧ e = Format.move n e' := by
  obtain ⟨admits, _⟩ := Automaton.exists_ofBlock_iff.mp ⟨_, h.body, rfl⟩
  have same : (Format.move n block).value.outline.clauses = block.value.outline.clauses :=
    clausesOf_move n block.value.items
  rw [same] at admits
  obtain ⟨a, carried, _⟩ := Automaton.exists_ofBlock_iff.mpr ⟨admits, rfl⟩
  have moved : e.automaton = Format.move n a :=
    Except.ok.inj (h.body.symm.trans (Automaton.ofBlock_move n carried))
  refine ⟨e.withAutomaton a, h.withAutomaton rfl rfl carried, ?_⟩
  rw [Declaration.move_withAutomaton, ← moved, Declaration.withAutomaton_automaton]

/-- A block that is all of a text makes a file. -/
theorem parse_of_spells {own after : List Char} {block : Located Block}
    (spelled : Grammar.anyBlock.Spells .nothing own block after)
    (declares : Declares file (move 0 block) e) :
    Document.parse file (String.ofList own) = .ok (Document.ofDeclarations [e]) := by
  have found := spelled.read 0 [] trivial
  rw [← Cursor.skip_solid spelled.solid, List.append_nil] at found
  have alone : Grammar.anyBlock.Repeats (Cursor.ofString (String.ofList own)) [move 0 block]
      ⟨0 + byteLength own, []⟩ := by
    rw [Cursor.ofString, String.toList_ofList]
    exact .more found (.done _)
  refine Document.parse_eq_ok_iff.mpr ⟨[move 0 block], [e], readBlocks_eq_ok_iff.mpr
    ⟨_, alone, rfl⟩, .cons declares .nil, ?_, rfl⟩
  cases e with
  | trace t => exact List.nodup_singleton t.id
  | constraint c => exact List.nodup_nil

/-- The items of a block tell where the transitions of its automaton are. -/
theorem Declares.placedIn (declares : Declares file block e)
    (found : Grammar.anyBlock.read c = some (block, c')) :
    e.automaton.PlacedIn (block.span file) := by
  obtain ⟨inside, after, begun, repeats, ended⟩ := Grammar.exists_items_of_block found
  obtain ⟨start, stop⟩ := Grammar.locates_anyBlock _ _ _ found
  obtain ⟨within, apart⟩ := Phrase.ordered_of_repeats Grammar.bounded_item Grammar.consumes_item
    (Phrase.locates_located _) repeats
  have records := Automaton.records_of_ofBlock declares.body
  refine ⟨_, records.count, records.transitionSpan?_eq, ?_, ?_⟩
  · exact (apart.filter _).map _ fun _ _ before => before
  · intro s member
    obtain ⟨item, listed, rfl⟩ := List.mem_map.mp member
    have := within item (List.mem_filter.mp listed).1
    change file = file ∧ block.start < item.start ∧ item.start < item.stop ∧ item.stop < block.stop
    omega

end Blocks

namespace Document

variable {file : Nat} {text : String} {d : Document}

/-- Places in an accepted file delimit what they are the places of. Those of its declarations
follow one another in the order of the file, and each can be cut out of the text. -/
theorem parse_places (accepted : parse file text = .ok d) :
    ∃ declarations spans, d = ofDeclarations declarations ∧ Span.Ordered spans ∧
      List.Forall₂ (Declaration.StandsAt file text) declarations spans := by
  obtain ⟨blocks, declarations, read, declares, _, rfl⟩ := parse_eq_ok_iff.mp accepted
  obtain ⟨after, repeats, _⟩ := readBlocks_eq_ok_iff.mp read
  obtain ⟨within, apart⟩ := Phrase.ordered_of_repeats Grammar.bounded_anyBlock
    Grammar.consumes_anyBlock Grammar.locates_anyBlock repeats
  have each : ∀ block ∈ blocks, ∀ e, Declares file block e →
      e.StandsAt file text (block.span file) := by
    intro block member e declares
    obtain ⟨c, c', found⟩ := Phrase.exists_read_of_mem repeats member
    obtain ⟨before, own, after, y, whole, start, stop, moved, spelled⟩ :=
      Phrase.exists_own_of_repeats Grammar.local_anyBlock Grammar.locates_anyBlock repeats
        block member
    have there : block = move block.start (move 0 y) := by
      rw [← move_add]
      exact moved
    have placed : Declares file (move block.start (move 0 y)) e := there ▸ declares
    obtain ⟨e', alone, same⟩ := placed.exists_of_move
    have delimits : (block.span file).Delimits text (String.ofList own) :=
      Span.delimits_of_toList whole (start.trans (Nat.zero_add _)) stop
    exact ⟨declares.span_eq, rfl, (within block member).2.1, declares.placedIn found,
      String.ofList own, e', delimits, parse_of_spells spelled alone, same⟩
  refine ⟨declarations, blocks.map fun block => block.span file, rfl, ?_, ?_⟩
  · exact apart.map _ fun _ _ before => before
  · rw [List.forall₂_map_right_iff]
    exact ((List.forall₂_and_left _ _).mpr ⟨each, declares⟩).flip.imp fun e block h => h.1 e h.2

end Document

namespace Sample

/-- Comments before and in a block have characters of several bytes. -/
def annotated : String :=
  "// één\nconstraint Q3 \x7b w--x->w;// ☕\n\tstates w; w --y-z-> w; \x7d trace 4\x7b\x7d//ß"

def annotatedDocument : Document where
  traces := [⟨4, ⟨"trace 4", [], [], none, [], [], some ⟨66, 75, 2⟩, []⟩⟩]
  constraints := [⟨⟨"Q3", by decide, by decide⟩, ⟨"Q3", ["w"], ["x", "y-z"], none, [],
    [⟨0, "x", 0⟩, ⟨0, "y-z", 0⟩], some ⟨9, 65, 2⟩, [some ⟨25, 33, 2⟩, some ⟨51, 63, 2⟩]⟩⟩]

end Sample

theorem Document.parse_places_sample :
    parse 2 Sample.annotated = .ok Sample.annotatedDocument ∧
    ∃ declarations spans, Sample.annotatedDocument = ofDeclarations declarations ∧
      Span.Ordered spans ∧
      List.Forall₂ (Declaration.StandsAt 2 Sample.annotated) declarations spans := by
  have accepted : parse 2 Sample.annotated = .ok Sample.annotatedDocument :=
    eq_ok_of_toOption (by decide +kernel)
  exact ⟨accepted, parse_places accepted⟩

end AlignPlan
