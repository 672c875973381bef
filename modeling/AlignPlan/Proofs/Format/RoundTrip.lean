import AlignPlan.Encoding.Inputs
import AlignPlan.Proofs.Format.Clauses
import AlignPlan.Proofs.Format.Declarations
import AlignPlan.Proofs.Format.Soundness

/-! Writing automata into a file and reading them back. The layout of the file does not matter, and
words of the grammar may be names. -/
namespace AlignPlan

open Format

theorem foldl_appendNew {α : Type} [DecidableEq α] {xs ys : List α} (distinct : (xs ++ ys).Nodup) :
    ys.foldl appendNew xs = xs ++ ys := by
  induction ys generalizing xs with
  | nil => simp
  | cons y ys ih =>
    have fresh : y ∉ xs := by
      intro member
      exact (List.nodup_append.mp distinct).2.2 y member y List.mem_cons_self rfl
    rw [List.append_cons] at distinct ⊢
    rw [List.foldl_cons, appendNew, if_neg fresh, ih distinct]

namespace Automaton

/-- The names of an automaton can be written down. -/
structure Writable (a : Automaton) : Prop where
  states : ∀ name ∈ a.states, Name.Writable name
  alphabet : ∀ symbol ∈ a.alphabet, Name.Writable symbol

/-- What a block spells to declare an automaton. -/
def clauses (a : Automaton) : List Clause :=
  [.states a.states, .alphabet a.alphabet] ++
    (match a.initial with
      | some state => [.init (a.stateName state)]
      | none => []) ++
    [.accept (a.accepting.map a.stateName)] ++
    a.transitions.map fun t => .transition (a.stateName t.source) t.symbol (a.stateName t.target)

variable {a b : Automaton} {file : Nat}

theorem stateIndex?_stateName (distinct : a.states.Nodup) {state : Nat} (bound : state < a.size) :
    a.stateIndex? (a.stateName state) = some state := by
  apply stateIndex?_of_stateName? distinct
  simp only [stateName, stateName?, List.getElem?_eq_getElem bound, Option.getD_some]

/-- States are looked up alike in all automata that have the same. -/
theorem resolve_stateName (distinct : a.states.Nodup) (same : b.states = a.states) {state : Nat}
    (bound : state < a.size) {token : Token} (spelled : token.value = a.stateName state) :
    b.resolve token = .ok state := by
  rw [resolve_eq_ok, spelled, stateIndex?, same]
  exact stateIndex?_stateName distinct bound

theorem foldl_addState (names : List String) (b : Automaton) :
    names.foldl addState b = { b with states := names.foldl appendNew b.states } := by
  induction names generalizing b with
  | nil => rfl
  | cons name names ih => simp only [List.foldl_cons, ih, addState]

theorem foldl_declareSymbol (symbols : List String) (b : Automaton) :
    symbols.foldl declareSymbol b = { b with alphabet := symbols.foldl appendNew b.alphabet } := by
  induction symbols generalizing b with
  | nil => rfl
  | cons symbol symbols ih => simp only [List.foldl_cons, ih, declareSymbol]

theorem declareStates_of_states {item : Located Item} {names : List String}
    (spells : item.value.clause = .states names) :
    b.declareStates item = { b with states := names.foldl appendNew b.states } := by
  unfold declareStates
  cases value : item.value <;> simp only [value, Item.clause, reduceCtorEq] at spells
  next tokens =>
    cases spells
    rw [← foldl_addState, List.foldl_map]

theorem declareStates_of_other {item : Located Item}
    (spells : ∀ names, item.value.clause ≠ .states names) : b.declareStates item = b := by
  unfold declareStates
  cases value : item.value <;> simp_all [Item.clause]

theorem apply_states {item : Located Item} {names : List String}
    (spells : item.value.clause = .states names) : b.apply file item = .ok b := by
  unfold apply
  cases value : item.value <;> simp_all [Item.clause]

theorem apply_alphabet {item : Located Item} {symbols : List String}
    (spells : item.value.clause = .alphabet symbols) :
    b.apply file item = .ok { b with alphabet := symbols.foldl appendNew b.alphabet } := by
  unfold apply
  cases value : item.value <;> simp only [value, Item.clause, reduceCtorEq] at spells
  next tokens =>
    cases spells
    rw [← foldl_declareSymbol, List.foldl_map]

theorem apply_init {item : Located Item} {state : Nat} (distinct : a.states.Nodup)
    (same : b.states = a.states) (bound : state < a.size) (fresh : b.initial = none)
    (spells : item.value.clause = .init (a.stateName state)) :
    b.apply file item = .ok { b with initial := some state } := by
  unfold apply
  cases value : item.value <;> simp only [value, Item.clause, reduceCtorEq] at spells
  next token =>
    injection spells with spelled
    simp only [fresh, Option.isSome_none, Bool.false_eq_true, if_false,
      resolve_stateName distinct same bound spelled, setInitial]

theorem acceptNamed_stateNames {tokens : List Token} {states : List Nat}
    (distinct : a.states.Nodup) (same : b.states = a.states) (bound : ∀ state ∈ states, state < a.size)
    (spelled : tokens.map Located.value = states.map a.stateName) :
    b.acceptNamed tokens = .ok { b with accepting := states.foldl appendNew b.accepting } := by
  induction states generalizing b tokens with
  | nil =>
    cases List.map_eq_nil_iff.mp spelled
    rfl
  | cons state states ih =>
    obtain ⟨token, tokens, rfl, first, others⟩ := List.map_eq_cons_iff.mp spelled
    rw [List.forall_mem_cons] at bound
    simp only [acceptNamed, resolve_stateName distinct same bound.1 first]
    exact ih (b := b.addAccepting state) same bound.2 others

theorem apply_accept {item : Located Item} {states : List Nat} (distinct : a.states.Nodup)
    (same : b.states = a.states) (bound : ∀ state ∈ states, state < a.size)
    (spells : item.value.clause = .accept (states.map a.stateName)) :
    b.apply file item = .ok { b with accepting := states.foldl appendNew b.accepting } := by
  unfold apply
  cases value : item.value <;> simp only [value, Item.clause, reduceCtorEq] at spells
  next tokens =>
    injection spells with spelled
    exact acceptNamed_stateNames distinct same bound spelled

variable (file) in
theorem apply_transition {item : Located Item} {t : Transition} (distinct : a.states.Nodup)
    (same : b.states = a.states) (source : t.source < a.size) (target : t.target < a.size)
    (spells : item.value.clause =
      .transition (a.stateName t.source) t.symbol (a.stateName t.target)) :
    ∃ b', b.apply file item = .ok b' ∧ b'.bare = (b.addTransition t).bare := by
  unfold apply
  cases value : item.value <;> simp only [value, Item.clause, reduceCtorEq] at spells
  next s y e =>
    injection spells with sameSource sameSymbol sameTarget
    simp only [resolve_stateName distinct same source sameSource,
      resolve_stateName distinct same target sameTarget, sameSymbol]
    exact ⟨_, rfl, rfl⟩

theorem applyAll_cons {item : Located Item} {items : List (Located Item)} {b' : Automaton}
    (applied : b.apply file item = .ok b') :
    b.applyAll file (item :: items) = b'.applyAll file items := by
  simp only [applyAll, applied]

theorem applyAll_transitions {items : List (Located Item)} {done more : List Transition}
    (sound : a.Sound) (all : a.transitions = done ++ more)
    (reached : b.bare = ({ a with transitions := done } : Automaton).bare)
    (spells : items.map (fun item => item.value.clause) = more.map fun t =>
      .transition (a.stateName t.source) t.symbol (a.stateName t.target)) :
    ∃ b', b.applyAll file items = .ok b' ∧ b'.bare = a.bare := by
  induction more generalizing b items done with
  | nil =>
    cases List.map_eq_nil_iff.mp spells
    refine ⟨b, rfl, reached.trans ?_⟩
    rw [List.append_nil] at all
    rw [← all]
  | cons t more ih =>
    obtain ⟨item, items, rfl, first, others⟩ := List.map_eq_cons_iff.mp spells
    obtain ⟨source, target, symbol⟩ := sound.transitions t (by simp [all])
    obtain ⟨states, alphabet, initial, accepting, transitions⟩ := bare_eq_bare_iff.mp reached
    simp only at states alphabet initial accepting transitions
    obtain ⟨b', applied, same⟩ :=
      apply_transition file sound.states states source target first
    rw [applyAll_cons applied]
    have next : a.transitions = (done ++ [t]) ++ more := by rw [all, List.append_cons]
    apply ih next _ others
    -- Reading a transition declares its symbol, which the alphabet has listed before.
    have declared : appendNew b.alphabet t.symbol = a.alphabet := by
      rw [alphabet, appendNew, if_pos symbol]
    rw [same, bare_eq_bare_iff]
    simp only [addTransition, addBareTransition, declareSymbol]
    exact ⟨states, declared, initial, accepting, by rw [transitions]⟩

theorem foldl_declareStates_of_others {items : List (Located Item)}
    (spells : ∀ item ∈ items, ∀ names, item.value.clause ≠ .states names) :
    items.foldl declareStates b = b := by
  induction items with
  | nil => rfl
  | cons item items ih =>
    rw [List.forall_mem_cons] at spells
    rw [List.foldl_cons, declareStates_of_other spells.1, ih spells.2]

theorem applyAll_init {items more : List (Located Item)} (sound : a.Sound)
    (same : b.states = a.states) (fresh : b.initial = none)
    (spells : items.map (fun item => item.value.clause) = match a.initial with
      | some state => [.init (a.stateName state)]
      | none => []) :
    b.applyAll file (items ++ more) = { b with initial := a.initial }.applyAll file more := by
  cases initial : a.initial with
  | none =>
    simp only [initial] at spells
    cases List.map_eq_nil_iff.mp spells
    rw [List.nil_append, ← fresh]
  | some state =>
    simp only [initial] at spells
    obtain ⟨item, rest, rfl, first, others⟩ := List.map_eq_cons_iff.mp spells
    cases List.map_eq_nil_iff.mp others
    exact applyAll_cons
      (apply_init sound.states same (sound.initial_lt state initial) fresh first)

variable (file) in
/-- A block that declares an automaton is read as that automaton. -/
theorem ofBlock_of_clauses {block : Located Block} (sound : a.Sound)
    (spells : block.value.items.map (fun item => item.value.clause) = a.clauses) (name : String) :
    ∃ b, ofBlock file name block = .ok b ∧ b.bare = a.bare := by
  unfold ofBlock
  extract_lets items declared
  simp only [clauses, List.append_assoc, List.cons_append, List.nil_append] at spells
  obtain ⟨stateItem, others, whole, statesSpelled, spells⟩ := List.map_eq_cons_iff.mp spells
  have noStates : ∀ item ∈ others, ∀ names, item.value.clause ≠ .states names := by
    intro item member names same
    have listed : item.value.clause ∈ others.map fun item => item.value.clause :=
      List.mem_map_of_mem member
    rw [spells, same] at listed
    cases initial : a.initial <;> simp [initial] at listed
  let b₀ : Automaton := (Automaton.empty name).setSpan ⟨block.start, block.stop, file⟩
  let b₁ : Automaton := { b₀ with states := a.states }
  have states : declared = b₁ := by
    have listed : a.states.foldl appendNew b₀.states = a.states := foldl_appendNew sound.states
    calc declared
        = (stateItem :: others).foldl declareStates b₀ := congrArg (List.foldl _ _) whole
      _ = others.foldl declareStates (b₀.declareStates stateItem) := rfl
      _ = others.foldl declareStates b₁ := by
        rw [declareStates_of_states statesSpelled, listed]
      _ = b₁ := foldl_declareStates_of_others noStates
  obtain ⟨alphabetItem, others, rfl, alphabetSpelled, spells⟩ := List.map_eq_cons_iff.mp spells
  obtain ⟨initItems, others, rfl, initSpelled, spells⟩ := List.map_eq_append_iff.mp spells
  obtain ⟨acceptItem, others, rfl, acceptSpelled, spells⟩ := List.map_eq_cons_iff.mp spells
  let b₂ : Automaton := { b₁ with alphabet := a.alphabet }
  let b₃ : Automaton := { b₂ with initial := a.initial }
  let b₄ : Automaton := { b₃ with accepting := a.accepting }
  have alphabet : b₁.apply file alphabetItem = .ok b₂ := by
    have listed : a.alphabet.foldl appendNew b₁.alphabet = a.alphabet :=
      foldl_appendNew sound.alphabet
    rw [apply_alphabet alphabetSpelled, listed]
  have accept : b₃.apply file acceptItem = .ok b₄ := by
    have listed : a.accepting.foldl appendNew b₃.accepting = a.accepting :=
      foldl_appendNew sound.accepting
    have same : b₃.states = a.states := rfl
    rw [apply_accept sound.states same sound.accepting_lt acceptSpelled, listed]
  have same : b₄.bare = ({ a with transitions := [] } : Automaton).bare := rfl
  obtain ⟨b, applied, result⟩ := applyAll_transitions sound (List.nil_append _).symm same spells
  refine ⟨b, ?_, result⟩
  calc applyAll file declared items
      = applyAll file b₁ (stateItem :: alphabetItem :: (initItems ++ acceptItem :: others)) := by
        rw [states]
        exact congrArg _ whole
    _ = applyAll file b₂ (initItems ++ acceptItem :: others) := by
        rw [applyAll_cons (apply_states statesSpelled), applyAll_cons alphabet]
    _ = applyAll file b₃ (acceptItem :: others) := applyAll_init sound rfl rfl initSpelled
    _ = applyAll file b₄ others := applyAll_cons accept
    _ = .ok b := applied

theorem writable_stateName (writable : a.Writable) {state : Nat} (bound : state < a.size) :
    Name.Writable (a.stateName state) := by
  apply writable.states
  simp only [stateName, stateName?, List.getElem?_eq_getElem bound, Option.getD_some]
  exact List.getElem_mem bound

/-- Only names of the automaton are spelled out. -/
theorem writable_clauses (sound : a.Sound) (writable : a.Writable) :
    ∀ clause ∈ a.clauses, ∀ name ∈ clause.names, Name.Writable name := by
  simp only [clauses, List.forall_mem_append, List.forall_mem_cons, List.forall_mem_map]
  refine ⟨⟨⟨⟨writable.states, writable.alphabet, by simp⟩, ?initial⟩, ⟨?accepting, by simp⟩⟩,
    ?transitions⟩
  case initial =>
    cases initial : a.initial with
    | none => simp
    | some state =>
      simpa [Clause.names] using writable_stateName writable (sound.initial_lt state initial)
  case accepting =>
    simp only [Clause.names, List.forall_mem_map]
    intro state member
    exact writable_stateName writable (sound.accepting_lt state member)
  case transitions =>
    intro t member
    obtain ⟨source, target, symbol⟩ := sound.transitions t member
    simp only [Clause.names, List.forall_mem_cons]
    exact ⟨writable_stateName writable source, writable.alphabet _ symbol,
      writable_stateName writable target, by simp⟩

end Automaton

/-- A trace or a constraint as a file declares it. -/
inductive Declaration
  | trace (t : TraceInput)
  | constraint (c : Constraint)
  deriving DecidableEq

namespace Declaration

def automaton : Declaration → Automaton
  | .trace t => t.automaton
  | .constraint c => c.automaton

def trace? : Declaration → Option TraceInput
  | .trace t => some t
  | .constraint _ => none

def constraint? : Declaration → Option Constraint
  | .trace _ => none
  | .constraint c => some c

def outline : Declaration → Outline
  | .trace t => ⟨.trace, Decimal.render t.id, t.automaton.clauses⟩
  | .constraint c => ⟨.constraint, c.id.text, c.automaton.clauses⟩

theorem writable_outline {e : Declaration} (sound : e.automaton.Sound)
    (writable : e.automaton.Writable) : e.outline.Writable := by
  cases e with
  | trace t => exact ⟨Automaton.writable_clauses sound writable, Decimal.isNumeral_render t.id⟩
  | constraint c =>
    refine ⟨Automaton.writable_clauses sound writable, ?_, c.id.alphanumeric⟩
    intro empty
    exact c.id.nonempty (String.toList_eq_nil_iff.mpr empty)

end Declaration

namespace Document

/-- A document without the names of its automata and their places in a file. -/
def bare (d : Document) : Document where
  traces := d.traces.map fun t => ⟨t.id, t.automaton.bare⟩
  constraints := d.constraints.map fun c => ⟨c.id, c.automaton.bare⟩

/-- What declarations amount to. -/
def ofDeclarations (declarations : List Declaration) : Document where
  traces := declarations.filterMap Declaration.trace?
  constraints := declarations.filterMap Declaration.constraint?

variable {file : Nat} {block : Located Block}

theorem addBlock_of_trace (d : Document) (file : Nat) {t : TraceInput} (sound : t.automaton.Sound)
    (fits : t.id < UInt64.size) (fresh : t.id ∉ d.traces.map TraceInput.id)
    (spells : block.value.outline = (Declaration.trace t).outline) :
    ∃ a, d.addBlock file block = .ok { d with traces := d.traces ++ [⟨t.id, a⟩] } ∧
      a.bare = t.automaton.bare := by
  injection spells with kind id clauses
  obtain ⟨a, declared, same⟩ :=
    Automaton.ofBlock_of_clauses file sound clauses ("trace " ++ Decimal.render t.id)
  refine ⟨a, ?_, same⟩
  have unused : (d.traces.any fun earlier => earlier.id == t.id) = false := by
    rw [List.any_eq_false]
    intro earlier member clash
    exact fresh (List.mem_map.mpr ⟨earlier, member, beq_iff_eq.mp clash⟩)
  simp only [addBlock, kind, addTrace, id, Decimal.word64?_render t.id fits, declared, unused,
    Bool.false_eq_true, if_false]

theorem addBlock_of_constraint (d : Document) (file : Nat) {c : Constraint} (sound : c.automaton.Sound)
    (spells : block.value.outline = (Declaration.constraint c).outline) :
    ∃ a, d.addBlock file block = .ok { d with constraints := d.constraints ++ [⟨c.id, a⟩] } ∧
      a.bare = c.automaton.bare := by
  injection spells with kind id clauses
  obtain ⟨a, declared, same⟩ := Automaton.ofBlock_of_clauses file sound clauses c.id.text
  refine ⟨a, ?_, same⟩
  simp only [addBlock, kind, addConstraint, id, AutomatonId.ofString_text, declared]

/-- Blocks that spell declarations add just these to a document. -/
theorem addBlocks_of_declarations (d : Document) (file : Nat) {blocks : List (Located Block)}
    {declarations : List Declaration} (sound : ∀ e ∈ declarations, e.automaton.Sound)
    (fits : ∀ t ∈ (ofDeclarations declarations).traces, t.id < UInt64.size)
    (apart : (d.traces.map TraceInput.id ++
      (ofDeclarations declarations).traces.map TraceInput.id).Nodup)
    (spells : blocks.map (fun b => b.value.outline) = declarations.map Declaration.outline) :
    ∃ d', d.addBlocks file blocks = .ok d' ∧
      d'.bare.traces = d.bare.traces ++ (ofDeclarations declarations).bare.traces ∧
      d'.bare.constraints =
        d.bare.constraints ++ (ofDeclarations declarations).bare.constraints := by
  induction declarations generalizing d blocks with
  | nil =>
    cases List.map_eq_nil_iff.mp spells
    exact ⟨d, rfl, by simp [ofDeclarations, bare]⟩
  | cons e declarations ih =>
    obtain ⟨block, blocks, rfl, first, others⟩ := List.map_eq_cons_iff.mp spells
    rw [List.forall_mem_cons] at sound
    cases e with
    | trace t =>
      have fresh : t.id ∉ d.traces.map TraceInput.id := by
        intro member
        exact (List.nodup_append.mp apart).2.2 t.id member t.id List.mem_cons_self rfl
      obtain ⟨a, added, same⟩ := addBlock_of_trace d file sound.1 (fits t List.mem_cons_self)
        fresh first
      simp only [addBlocks, added]
      have apart' : ((d.traces ++ [(⟨t.id, a⟩ : TraceInput)]).map TraceInput.id ++
          (ofDeclarations declarations).traces.map TraceInput.id).Nodup := by
        simpa [ofDeclarations, Declaration.trace?] using apart
      obtain ⟨d', more, traces, constraints⟩ := ih { d with traces := d.traces ++ [⟨t.id, a⟩] }
        sound.2 (fun t member => fits t (List.mem_cons_of_mem _ member)) apart' others
      refine ⟨d', more, ?_, ?_⟩
      · rw [traces]
        simp [bare, ofDeclarations, Declaration.trace?, same]
      · exact constraints
    | constraint c =>
      obtain ⟨a, added, same⟩ := addBlock_of_constraint d file sound.1 first
      simp only [addBlocks, added]
      obtain ⟨d', more, traces, constraints⟩ :=
        ih { d with constraints := d.constraints ++ [⟨c.id, a⟩] } sound.2 fits apart others
      refine ⟨d', more, ?_, ?_⟩
      · exact traces
      · rw [constraints]
        simp [bare, ofDeclarations, Declaration.constraint?, same]

/-- Written down in any layout and read again, declarations are what they were. -/
theorem parse_spread {declarations : List Declaration} {lead : Gap} {placed : List (String × Gap)}
    (sound : ∀ e ∈ declarations, e.automaton.Sound ∧ e.automaton.Writable)
    (fits : ∀ t ∈ (ofDeclarations declarations).traces, t.id < UInt64.size)
    (apart : ((ofDeclarations declarations).traces.map TraceInput.id).Nodup)
    (words : placed.map Prod.fst = declarations.flatMap fun e => e.outline.words)
    (gaps : ∀ p ∈ placed.dropLast, p.2 ≠ []) :
    ∃ d, parse file (spread lead placed) = .ok d ∧
      d.bare = (ofDeclarations declarations).bare := by
  have spelled : placed.map Prod.fst =
      (declarations.map Declaration.outline).flatMap Outline.words := by
    rw [words, List.flatMap_map]
  have writable : ∀ o ∈ declarations.map Declaration.outline, o.Writable := by
    rw [List.forall_mem_map]
    intro e member
    exact Declaration.writable_outline (sound e member).1 (sound e member).2
  obtain ⟨blocks, read, outlines⟩ := readBlocks_spread writable spelled gaps
  obtain ⟨d, added, traces, constraints⟩ := addBlocks_of_declarations empty file
    (fun e member => (sound e member).1) fits apart outlines
  refine ⟨d, ?_, ?_⟩
  · unfold parse
    rw [read]
    exact added
  · exact congrArg₂ Document.mk traces constraints

end Document

namespace Sample

/-- States and symbols that are words of the grammar or begin with one. -/
def keywords : Automaton where
  name := "keywords"
  states := ["states", "init-0", "accept"]
  alphabet := ["alphabet", "trace"]
  initial := some 0
  accepting := [2, 1]
  transitions := [⟨0, "trace", 1⟩, ⟨1, "alphabet", 2⟩, ⟨2, "trace", 2⟩]
  span := none
  transitionSpans := []

theorem keywords_sound : keywords.Sound := by
  refine ⟨by decide, by decide, by decide, ?_, by decide, by decide⟩
  intro state initial
  cases initial
  decide

theorem keywords_writable : keywords.Writable := ⟨by decide +kernel, by decide +kernel⟩

/-- An automaton that has nothing, not even an initial state. -/
def bareTrace : TraceInput := ⟨18446744073709551615, Automaton.empty ""⟩

def keywordDeclarations : List Declaration :=
  [.constraint ⟨⟨"007", by decide, by decide⟩, keywords⟩, .trace bareTrace, .trace ⟨0, keywords⟩]

/-- A comment that looks like the end of a block, and the ends of lines in turns. -/
def gaps : List Gap :=
  [[.space], [.lineEnd .both, .tab],
    [.comment ['\x7d'] (List.forall_mem_singleton.mpr rfl) .lineFeed], [.lineEnd .carriageReturn]]

def keywordWords : List (String × Gap) :=
  (keywordDeclarations.flatMap fun e => e.outline.words).zipIdx.map fun (word, n) =>
    (word, gaps.getD (n % 4) [])

end Sample

namespace Document

theorem parse_spread_sample : ∃ d, parse 0 (spread [.tab] Sample.keywordWords) = .ok d ∧
    d.bare = (ofDeclarations Sample.keywordDeclarations).bare := by
  apply parse_spread
  · intro e member
    simp only [Sample.keywordDeclarations, List.mem_cons, List.not_mem_nil, or_false] at member
    rcases member with rfl | rfl | rfl
    · exact ⟨Sample.keywords_sound, Sample.keywords_writable⟩
    · exact ⟨Automaton.sound_empty "", by decide, by decide⟩
    · exact ⟨Sample.keywords_sound, Sample.keywords_writable⟩
  · decide
  · decide
  · simp [Sample.keywordWords, List.map_map, Function.comp_def]
  · decide

end Document

end AlignPlan
