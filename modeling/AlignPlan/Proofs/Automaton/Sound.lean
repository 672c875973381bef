import AlignPlan.Automaton
import AlignPlan.Proofs.Validation.Names
import Mathlib.Data.List.Nodup

/-! Automata that refer to nothing they do not have. Building one keeps this as long as every
state that is referred to is there already. -/
namespace AlignPlan.Automaton

/-- No state, symbol or accepting state is listed twice, and all references lead to states and
symbols of the automaton. There need not be an initial or an accepting state. -/
structure Sound (a : Automaton) : Prop where
  states : a.states.Nodup
  alphabet : a.alphabet.Nodup
  accepting : a.accepting.Nodup
  initial_lt : ∀ state, a.initial = some state → state < a.size
  accepting_lt : ∀ state ∈ a.accepting, state < a.size
  transitions : ∀ t ∈ a.transitions, t.source < a.size ∧ t.target < a.size ∧ t.symbol ∈ a.alphabet

/-- All names are such that a state may have them. -/
structure Legible (a : Automaton) : Prop where
  states : ∀ name ∈ a.states, Name.defect? name = none
  alphabet : ∀ symbol ∈ a.alphabet, Name.defect? symbol = none

/-- An automaton without its name and its places in a file. -/
def bare (a : Automaton) : Automaton := { a with name := "", span := none, transitionSpans := [] }

variable {a : Automaton}

theorem bare_eq_bare_iff {b : Automaton} : b.bare = a.bare ↔ b.states = a.states ∧
    b.alphabet = a.alphabet ∧ b.initial = a.initial ∧ b.accepting = a.accepting ∧
    b.transitions = a.transitions := by
  simp [bare]

theorem stateName?_of_stateIndex? {name : String} {state : Nat}
    (h : a.stateIndex? name = some state) : a.stateName? state = some name := by
  obtain ⟨bound, found, _⟩ := List.idxOf?_eq_some_iff.mp h
  exact List.getElem?_eq_some_iff.mpr ⟨bound, found⟩

/-- States without a name in common are found by their names. -/
theorem stateIndex?_of_stateName? {name : String} {state : Nat} (distinct : a.states.Nodup)
    (h : a.stateName? state = some name) : a.stateIndex? name = some state := by
  obtain ⟨bound, found⟩ := List.getElem?_eq_some_iff.mp h
  refine List.idxOf?_eq_some_iff.mpr ⟨bound, found, ?_⟩
  intro earlier before same
  have := (List.Nodup.getElem_inj_iff distinct).mp (same.trans found.symm)
  omega

theorem Sound.of_bare {b : Automaton} (sound : a.Sound) (same : b.bare = a.bare) : b.Sound := by
  have stripped : a.bare.Sound := ⟨sound.states, sound.alphabet, sound.accepting,
    sound.initial_lt, sound.accepting_lt, sound.transitions⟩
  rw [← same] at stripped
  exact ⟨stripped.states, stripped.alphabet, stripped.accepting, stripped.initial_lt,
    stripped.accepting_lt, stripped.transitions⟩

theorem Legible.of_bare {b : Automaton} (legible : a.Legible) (same : b.bare = a.bare) :
    b.Legible := by
  have stripped : a.bare.Legible := ⟨legible.states, legible.alphabet⟩
  rw [← same] at stripped
  exact ⟨stripped.states, stripped.alphabet⟩

theorem sound_empty (name : String) : (empty name).Sound := by
  constructor <;> simp [empty]

theorem legible_empty (name : String) : (empty name).Legible := by
  constructor <;> simp [empty]

theorem size_le_addState (a : Automaton) (name : String) : a.size ≤ (a.addState name).size :=
  (prefix_appendNew a.states name).length_le

theorem Sound.addState (sound : a.Sound) (name : String) : (a.addState name).Sound := by
  have grows := size_le_addState a name
  constructor
  · exact nodup_appendNew sound.states name
  · exact sound.alphabet
  · exact sound.accepting
  · intro state initial
    have := sound.initial_lt state initial
    omega
  · intro state member
    have := sound.accepting_lt state member
    omega
  · intro t member
    obtain ⟨source, target, symbol⟩ := sound.transitions t member
    exact ⟨by omega, by omega, symbol⟩

theorem Legible.addState (legible : a.Legible) {name : String} (h : Name.defect? name = none) :
    (a.addState name).Legible := by
  constructor
  · intro other member
    rcases mem_appendNew.mp member with member | rfl
    · exact legible.states other member
    · exact h
  · exact legible.alphabet

theorem Sound.declareSymbol (sound : a.Sound) (symbol : String) :
    (a.declareSymbol symbol).Sound := by
  constructor
  · exact sound.states
  · exact nodup_appendNew sound.alphabet symbol
  · exact sound.accepting
  · exact sound.initial_lt
  · exact sound.accepting_lt
  · intro t member
    obtain ⟨source, target, declared⟩ := sound.transitions t member
    exact ⟨source, target, mem_appendNew.mpr (.inl declared)⟩

theorem Legible.declareSymbol (legible : a.Legible) {symbol : String}
    (h : Name.defect? symbol = none) : (a.declareSymbol symbol).Legible := by
  constructor
  · exact legible.states
  · intro other member
    rcases mem_appendNew.mp member with member | rfl
    · exact legible.alphabet other member
    · exact h

theorem Sound.setInitial (sound : a.Sound) {state : Nat} (bound : state < a.size) :
    (a.setInitial state).Sound := by
  refine ⟨sound.states, sound.alphabet, sound.accepting, ?_, sound.accepting_lt,
    sound.transitions⟩
  intro other initial
  cases initial
  exact bound

theorem Sound.addAccepting (sound : a.Sound) {state : Nat} (bound : state < a.size) :
    (a.addAccepting state).Sound := by
  refine ⟨sound.states, sound.alphabet, nodup_appendNew sound.accepting state,
    sound.initial_lt, ?_, sound.transitions⟩
  intro other member
  rcases mem_appendNew.mp member with member | rfl
  · exact sound.accepting_lt other member
  · exact bound

theorem Sound.addTransition (sound : a.Sound) {t : Transition} (source : t.source < a.size)
    (target : t.target < a.size) : (a.addTransition t).Sound := by
  have declared := sound.declareSymbol t.symbol
  refine ⟨declared.states, declared.alphabet, declared.accepting, declared.initial_lt,
    declared.accepting_lt, ?_⟩
  intro other member
  rcases List.mem_append.mp member with member | member
  · exact declared.transitions other member
  · rw [List.mem_singleton.mp member]
    exact ⟨source, target, mem_appendNew.mpr (.inr rfl)⟩

theorem Legible.addTransition (legible : a.Legible) {t : Transition}
    (h : Name.defect? t.symbol = none) : (a.addTransition t).Legible := by
  have declared := legible.declareSymbol h
  exact ⟨declared.states, declared.alphabet⟩

end AlignPlan.Automaton
