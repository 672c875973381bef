import AlignPlan.Format.Document
import AlignPlan.Proofs.Automaton.Sound
import AlignPlan.Proofs.Format.Language
import AlignPlan.Proofs.Validation.WellFormed
import Mathlib.Data.List.Nodup

/-! What a file declares is sound, whatever its text: traces have numbers of their own, and
automata refer to nothing they do not have. All that validation may still miss are initial and
accepting states, and all it may find too many are accepting states of a trace and symbols that
cannot be activities. -/
namespace AlignPlan

open Format (Token Item Block Located)

namespace Automaton

variable {a a' : Automaton} {file : Nat}

theorem resolve_eq_ok {name : Token} {state : Nat} :
    a.resolve name = .ok state ↔ a.stateIndex? name.value = some state := by
  unfold resolve
  cases a.stateIndex? name.value <;> simp

theorem resolve_lt {name : Token} {state : Nat} (h : a.resolve name = .ok state) :
    state < a.size := by
  have named := stateName?_of_stateIndex? (resolve_eq_ok.mp h)
  exact (List.getElem?_eq_some_iff.mp named).1

theorem Sound.declareStates (sound : a.Sound) (item : Located Item) :
    (a.declareStates item).Sound := by
  unfold Automaton.declareStates
  split
  next names _ =>
    exact List.foldlRecOn names _ sound fun b sound name _ => sound.addState name.value
  next => exact sound

theorem Legible.declareStates (legible : a.Legible) {item : Located Item}
    (h : item.value.Legible) : (a.declareStates item).Legible := by
  unfold Automaton.declareStates
  split
  next names value =>
    rw [value] at h
    exact List.foldlRecOn names _ legible fun b legible name member =>
      legible.addState (h name member)
  next => exact legible

theorem Sound.acceptNamed {names : List Token} (sound : a.Sound)
    (h : a.acceptNamed names = .ok a') : a'.Sound := by
  fun_induction Automaton.acceptNamed a names with
  | case1 a => cases h; exact sound
  | case2 => cases h
  | case3 a name names state found ih => exact ih (sound.addAccepting (resolve_lt found)) h

theorem Legible.acceptNamed {names : List Token} (legible : a.Legible)
    (h : a.acceptNamed names = .ok a') : a'.Legible := by
  fun_induction Automaton.acceptNamed a names with
  | case1 a => cases h; exact legible
  | case2 => cases h
  | case3 a name names state found ih => exact ih ⟨legible.states, legible.alphabet⟩ h

theorem Sound.apply {item : Located Item} (sound : a.Sound) (h : a.apply file item = .ok a') :
    a'.Sound := by
  unfold Automaton.apply at h
  cases value : item.value with
  | states names =>
    simp only [value] at h
    cases h
    exact sound
  | alphabet names =>
    simp only [value] at h
    cases h
    exact List.foldlRecOn names _ sound fun b sound symbol _ => sound.declareSymbol symbol.value
  | init name =>
    simp only [value] at h
    split at h
    next => cases h
    next =>
      split at h
      next => cases h
      next state found =>
        cases h
        exact sound.setInitial (resolve_lt found)
  | accept names =>
    simp only [value] at h
    exact sound.acceptNamed h
  | transition source symbol target =>
    simp only [value] at h
    split at h
    next => cases h
    next => cases h
    next s t sourceFound targetFound =>
      cases h
      have added : (a.addTransition ⟨s, symbol.value, t⟩).Sound :=
        sound.addTransition (resolve_lt sourceFound) (resolve_lt targetFound)
      exact added.of_bare rfl

theorem Legible.apply {item : Located Item} (legible : a.Legible) (names : item.value.Legible)
    (h : a.apply file item = .ok a') : a'.Legible := by
  unfold Automaton.apply at h
  cases value : item.value with
  | states names =>
    simp only [value] at h
    cases h
    exact legible
  | alphabet symbols =>
    rw [value] at names
    simp only [value] at h
    cases h
    exact List.foldlRecOn symbols _ legible fun b legible symbol member =>
      legible.declareSymbol (names symbol member)
  | init name =>
    simp only [value] at h
    split at h
    next => cases h
    next =>
      split at h
      next => cases h
      next =>
        cases h
        exact ⟨legible.states, legible.alphabet⟩
  | accept names =>
    simp only [value] at h
    exact legible.acceptNamed h
  | transition source symbol target =>
    rw [value] at names
    simp only [value] at h
    split at h
    next => cases h
    next => cases h
    next s t _ _ =>
      cases h
      have added : (a.addTransition ⟨s, symbol.value, t⟩).Legible :=
        legible.addTransition (names symbol (by simp [Item.tokens]))
      exact added.of_bare rfl

theorem sound_of_applyAll {items : List (Located Item)} (sound : a.Sound)
    (h : a.applyAll file items = .ok a') : a'.Sound := by
  fun_induction applyAll file a items with
  | case1 => cases h; exact sound
  | case2 => cases h
  | case3 a item items b applied ih => exact ih (sound.apply applied) h

theorem legible_of_applyAll {items : List (Located Item)} (legible : a.Legible)
    (names : ∀ item ∈ items, item.value.Legible) (h : a.applyAll file items = .ok a') :
    a'.Legible := by
  fun_induction applyAll file a items with
  | case1 => cases h; exact legible
  | case2 => cases h
  | case3 a item items b applied ih =>
    rw [List.forall_mem_cons] at names
    exact ih (legible.apply names.1 applied) names.2 h

theorem sound_of_ofBlock {name : String} {block : Located Block}
    (h : ofBlock file name block = .ok a) : a.Sound := by
  refine sound_of_applyAll ?_ h
  have start : ((empty name).setSpan ⟨block.start, block.stop, file⟩).Sound :=
    (sound_empty "").of_bare rfl
  exact List.foldlRecOn block.value.items _ start fun b sound item _ => sound.declareStates item

theorem legible_of_ofBlock {name : String} {block : Located Block}
    (names : ∀ item ∈ block.value.items, item.value.Legible)
    (h : ofBlock file name block = .ok a) : a.Legible := by
  refine legible_of_applyAll ?_ names h
  have start : ((empty name).setSpan ⟨block.start, block.stop, file⟩).Legible :=
    (legible_empty "").of_bare rfl
  exact List.foldlRecOn block.value.items _ start fun b legible item member =>
    legible.declareStates (names item member)

/-- What validation may find in an automaton that is sound and legible. -/
theorem Sound.cause_of_violation? {role : Role} {cause : Fault.Cause} (sound : a.Sound)
    (legible : a.Legible) (found : a.violation? role = some cause) :
    cause = .noInitialState ∨ cause = .noAcceptingState ∨
      (role = .trace ∧ 1 < a.accepting.length ∧
        cause = .tooManyAcceptingStates a.accepting.length) ∨
      ∃ symbol ∈ a.alphabet, ∃ defect : Name.Defect, cause = .badName symbol defect.message ∧
        (defect = .firstCharacter ∧ symbol.toList.head?.any Char.isAlpha = false ∨
          defect = .reserved symbol ∧ Name.isReserved symbol = true) := by
  have states : a.badState? = none := by
    simp only [badState?, List.findSome?_eq_none_iff, Option.map_eq_none_iff]
    exact legible.states
  have transitions : a.badTransition? = none := by
    simp only [badTransition?, List.findSome?_eq_none_iff, Option.map_eq_none_iff,
      transitionDefect?_eq_none]
    exact sound.transitions
  simp only [violation?, states, transitions, Option.none_or, Option.or_none,
    Option.or_eq_some_iff] at found
  rcases found with unusable | ⟨_, initial | ⟨_, accepting⟩⟩
  · obtain ⟨symbol, member, found⟩ := List.exists_of_findSome?_eq_some unusable
    obtain ⟨defect, short, rfl⟩ := Option.map_eq_some_iff.mp found
    have reasons := Name.activityDefect?_of_defect?_eq_none (legible.alphabet symbol member) short
    exact .inr (.inr (.inr ⟨symbol, member, defect, rfl, reasons⟩))
  · unfold badInitial? at initial
    split at initial
    next => exact .inl (Option.some.inj initial).symm
    next state declared => simp [hasState, sound.initial_lt state declared] at initial
  · unfold badAccepting? at accepting
    split at accepting
    next => exact .inr (.inl (Option.some.inj accepting).symm)
    next =>
      split at accepting
      next several => exact .inr (.inr (.inl ⟨several.1, several.2, (Option.some.inj accepting).symm⟩))
      next =>
        have known : a.accepting.find? (fun state => !a.hasState state) = none := by
          simpa [hasState] using sound.accepting_lt
        simp [known] at accepting

end Automaton

namespace Document

/-- All automata of a document, traces before constraints. -/
def automata (d : Document) : List Automaton :=
  d.traces.map TraceInput.automaton ++ d.constraints.map Constraint.automaton

/-- Traces are told apart by their numbers, and all automata are sound and legible. -/
structure Sound (d : Document) : Prop where
  traceIds : (d.traces.map TraceInput.id).Nodup
  automata : ∀ a ∈ d.automata, a.Sound ∧ a.Legible

variable {d d' : Document} {file : Nat} {block : Located Block}

theorem mem_automata {a : Automaton} : a ∈ d.automata ↔
    (∃ t ∈ d.traces, t.automaton = a) ∨ ∃ c ∈ d.constraints, c.automaton = a := by
  simp [automata]

theorem sound_empty : empty.Sound := by
  constructor <;> simp [empty, automata]

theorem Sound.addTrace (sound : d.Sound) (names : ∀ item ∈ block.value.items, item.value.Legible)
    (h : d.addTrace file block = .ok d') : d'.Sound := by
  unfold Document.addTrace at h
  simp only at h
  split at h
  next => cases h
  next id _ =>
    split at h
    next => cases h
    next a declared =>
      split at h
      next => cases h
      next fresh =>
        cases h
        constructor
        · simp only [List.any_eq_true, beq_iff_eq, not_exists, not_and] at fresh
          rw [List.map_append, List.nodup_append]
          refine ⟨sound.traceIds, List.nodup_singleton _, ?_⟩
          intro i listed j single
          obtain ⟨t, member, rfl⟩ := List.mem_map.mp listed
          rw [List.mem_singleton.mp single]
          exact fresh t member
        · intro b member
          rcases mem_automata.mp member with ⟨t, added, rfl⟩ | ⟨c, listed, rfl⟩
          · rcases List.mem_append.mp added with listed | last
            · exact sound.automata _ (mem_automata.mpr (.inl ⟨t, listed, rfl⟩))
            · rw [List.mem_singleton.mp last]
              exact ⟨Automaton.sound_of_ofBlock declared,
                Automaton.legible_of_ofBlock names declared⟩
          · exact sound.automata _ (mem_automata.mpr (.inr ⟨c, listed, rfl⟩))

theorem Sound.addConstraint (sound : d.Sound)
    (names : ∀ item ∈ block.value.items, item.value.Legible)
    (h : d.addConstraint file block = .ok d') : d'.Sound := by
  unfold Document.addConstraint at h
  simp only at h
  split at h
  next => cases h
  next id _ =>
    split at h
    next => cases h
    next a declared =>
      cases h
      refine ⟨sound.traceIds, ?_⟩
      intro b member
      rcases mem_automata.mp member with ⟨t, listed, rfl⟩ | ⟨c, added, rfl⟩
      · exact sound.automata _ (mem_automata.mpr (.inl ⟨t, listed, rfl⟩))
      · rcases List.mem_append.mp added with listed | last
        · exact sound.automata _ (mem_automata.mpr (.inr ⟨c, listed, rfl⟩))
        · rw [List.mem_singleton.mp last]
          exact ⟨Automaton.sound_of_ofBlock declared,
            Automaton.legible_of_ofBlock names declared⟩

theorem Sound.addBlocks {blocks : List (Located Block)} (sound : d.Sound)
    (legible : ∀ block ∈ blocks, block.value.Legible)
    (h : d.addBlocks file blocks = .ok d') : d'.Sound := by
  fun_induction Document.addBlocks file d blocks with
  | case1 => cases h; exact sound
  | case2 => cases h
  | case3 d block blocks next added ih =>
    rw [List.forall_mem_cons] at legible
    refine ih ?_ legible.2 h
    unfold addBlock at added
    split at added
    · exact sound.addTrace legible.1.items added
    · exact sound.addConstraint legible.1.items added

theorem sound_of_parse {text : String} (h : parse file text = .ok d) : d.Sound := by
  unfold parse at h
  split at h
  next => cases h
  next blocks read => exact sound_empty.addBlocks (Format.legible_of_readBlocks read) h

/-- What reading a file can leave to validation. -/
theorem sound_automata_of_parse {text : String} (h : parse file text = .ok d) :
    (d.traces.map TraceInput.id).Nodup ∧
    ∀ a ∈ d.automata, a.Sound ∧ (∀ name ∈ a.states, Name.defect? name = none) ∧
      ∀ label role fault, a.fault? label role = some fault → fault.automaton = label ∧
        (fault.cause = .noInitialState ∨ fault.cause = .noAcceptingState ∨
          (role = .trace ∧ 1 < a.accepting.length ∧
            fault.cause = .tooManyAcceptingStates a.accepting.length) ∨
          ∃ symbol ∈ a.alphabet, ∃ defect : Name.Defect,
            fault.cause = .badName symbol defect.message ∧
              (defect = .firstCharacter ∧ symbol.toList.head?.any Char.isAlpha = false ∨
                defect = .reserved symbol ∧ Name.isReserved symbol = true)) := by
  have sound := sound_of_parse h
  refine ⟨sound.traceIds, ?_⟩
  intro a member
  obtain ⟨consistent, legible⟩ := sound.automata a member
  refine ⟨consistent, legible.states, ?_⟩
  intro label role fault found
  obtain ⟨cause, violated, rfl⟩ := Option.map_eq_some_iff.mp found
  exact ⟨rfl, consistent.cause_of_violation? legible violated⟩

end Document

namespace Sample

/-- States are declared last, one of them twice, and a symbol is a word of the planning
language. -/
def lateStates : String :=
  "trace 7 \x7b a --and-> states; accept a states; states states a a; \x7d // no initial state
  constraint q \x7b states s-0; init s-0; s-0 --1st-> s-0; \x7d"

def lateDocument : Document where
  traces := [⟨7, ⟨"trace 7", ["states", "a"], ["and"], none, [1, 0], [⟨1, "and", 0⟩],
    some ⟨0, 65, 3⟩, [some ⟨10, 27, 3⟩]⟩⟩]
  constraints := [⟨⟨"q", by decide, by decide⟩, ⟨"q", ["s-0"], ["1st"], some 0, [],
    [⟨0, "1st", 0⟩], some ⟨88, 143, 3⟩, [some ⟨125, 141, 3⟩]⟩⟩]

end Sample

namespace Document

/-- Both automata are sound, and neither is valid. -/
theorem sound_automata_sample : parse 3 Sample.lateStates = .ok Sample.lateDocument ∧
    (∀ a ∈ Sample.lateDocument.automata, a.Sound) ∧
    Sample.lateDocument.automata.map (fun a => a.violation? .trace) =
      [some (.badName "and" (Name.Defect.reserved "and").message),
       some (.badName "1st" Name.Defect.firstCharacter.message)] := by
  have read : parse 3 Sample.lateStates = .ok Sample.lateDocument := by
    have found : (parse 3 Sample.lateStates).toOption = some Sample.lateDocument := by
      decide +kernel
    cases result : parse 3 Sample.lateStates <;> simp_all [Except.toOption]
  refine ⟨read, ?_, by decide +kernel⟩
  intro a member
  exact ((sound_automata_of_parse read).2 a member).1

end Document

end AlignPlan
