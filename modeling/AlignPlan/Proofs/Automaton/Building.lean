import AlignPlan.Proofs.Automaton.Sound
import AlignPlan.Proofs.Lists

/-! Automata as they are built, step by step. What an automaton has come to is what the steps have
added up to, whatever their order and whether or not the states and transitions they refer to are
there. The handles that are given out stay good, and an index of the names that is kept along
the way finds the states that have them. -/
namespace AlignPlan

/-- States and transitions are referred to by position and need not be there. -/
inductive BuildStep
  | addState (name : String)
  | declareSymbol (symbol : String)
  | setInitial (state : Nat)
  | addAccepting (state : Nat)
  | addTransition (t : Transition)
  | addBareTransition (t : Transition)
  | setSpan (span : Span)
  | setTransitionSpan (transition : Nat) (span : Span)

namespace BuildStep

def apply (a : Automaton) : BuildStep → Automaton
  | .addState name => a.addState name
  | .declareSymbol symbol => a.declareSymbol symbol
  | .setInitial state => a.setInitial state
  | .addAccepting state => a.addAccepting state
  | .addTransition t => a.addTransition t
  | .addBareTransition t => a.addBareTransition t
  | .setSpan span => a.setSpan span
  | .setTransitionSpan transition span => a.setTransitionSpan transition span

def state? : BuildStep → Option String
  | .addState name => some name
  | _ => none

/-- A symbol is declared on its own or by a transition. -/
def symbol? : BuildStep → Option String
  | .declareSymbol symbol => some symbol
  | .addTransition t => some t.symbol
  | _ => none

def accepting? : BuildStep → Option Nat
  | .addAccepting state => some state
  | _ => none

def transition? : BuildStep → Option Transition
  | .addTransition t | .addBareTransition t => some t
  | _ => none

def initial? : BuildStep → Option Nat
  | .setInitial state => some state
  | _ => none

def span? : BuildStep → Option Span
  | .setSpan span => some span
  | _ => none

/-- The place that is recorded for a given transition. -/
def spanOf? (transition : Nat) : BuildStep → Option Span
  | .setTransitionSpan other span => if other = transition then some span else none
  | _ => none

end BuildStep

namespace Automaton

def built (name : String) (steps : List BuildStep) : Automaton :=
  steps.foldl BuildStep.apply (empty name)

/-! ### What the steps add up to -/

section Totals

variable (name : String) (steps : List BuildStep)

/-- A part of an automaton that every step leaves alone or combines with what it brings. -/
theorem foldl_apply {β γ : Type} (part : Automaton → β) (brought : BuildStep → Option γ)
    (combine : β → γ → β)
    (one : ∀ a step, part (step.apply a) = (brought step).toList.foldl combine (part a))
    (a : Automaton) : part (steps.foldl BuildStep.apply a) =
      (steps.filterMap brought).foldl combine (part a) := by
  induction steps generalizing a with
  | nil => rfl
  | cons step steps ih =>
    rw [List.foldl_cons, ih, one, List.filterMap_cons]
    cases brought step <;> rfl

theorem states_built : (built name steps).states = distinct (steps.filterMap BuildStep.state?) :=
  foldl_apply steps states _ appendNew (fun _ step => by cases step <;> rfl) _

theorem alphabet_built :
    (built name steps).alphabet = distinct (steps.filterMap BuildStep.symbol?) :=
  foldl_apply steps alphabet _ appendNew (fun _ step => by cases step <;> rfl) _

theorem accepting_built :
    (built name steps).accepting = distinct (steps.filterMap BuildStep.accepting?) :=
  foldl_apply steps accepting _ appendNew (fun _ step => by cases step <;> rfl) _

theorem transitions_built :
    (built name steps).transitions = steps.filterMap BuildStep.transition? := by
  have listed := foldl_apply steps transitions BuildStep.transition? (fun ts t => ts ++ [t])
    (fun _ step => by cases step <;> rfl) (empty name)
  rw [built, listed, List.foldl_append_eq_append, ← List.flatMap_def]
  simp [empty]

theorem initial_built :
    (built name steps).initial = (steps.filterMap BuildStep.initial?).getLast? := by
  rw [← foldl_some_eq_getLast?]
  exact foldl_apply steps initial _ _ (fun _ step => by cases step <;> rfl) _

theorem span_built : (built name steps).span = (steps.filterMap BuildStep.span?).getLast? := by
  rw [← foldl_some_eq_getLast?]
  exact foldl_apply steps span _ _ (fun _ step => by cases step <;> rfl) _

theorem transitionSpan?_apply (transition : Nat) (a : Automaton) (step : BuildStep) :
    (step.apply a).transitionSpan? transition =
      (step.spanOf? transition).toList.foldl (fun _ span => some span)
        (a.transitionSpan? transition) := by
  cases step with
  | setTransitionSpan other span =>
    have recorded := recordAt_get? a.transitionSpans other transition span
    rw [BuildStep.apply, setTransitionSpan, transitionSpan?, recorded, BuildStep.spanOf?]
    by_cases same : transition = other
    · simp [same]
    · simp [same, Ne.symm same, transitionSpan?]
  | _ => rfl

theorem transitionSpan?_built (transition : Nat) : (built name steps).transitionSpan? transition =
    (steps.filterMap (BuildStep.spanOf? transition)).getLast? := by
  rw [← foldl_some_eq_getLast?]
  exact foldl_apply steps (transitionSpan? · transition) _ _ (transitionSpan?_apply transition) _

end Totals

/-! ### Growth -/

/-- The states, symbols, accepting states and transitions of `a` are the first of `b`. -/
structure Extends (b a : Automaton) : Prop where
  states : a.states <+: b.states
  alphabet : a.alphabet <+: b.alphabet
  accepting : a.accepting <+: b.accepting
  transitions : a.transitions <+: b.transitions

theorem extends_refl (a : Automaton) : a.Extends a :=
  ⟨List.prefix_rfl, List.prefix_rfl, List.prefix_rfl, List.prefix_rfl⟩

theorem Extends.trans {a b c : Automaton} (later : c.Extends b) (earlier : b.Extends a) :
    c.Extends a where
  states := earlier.states.trans later.states
  alphabet := earlier.alphabet.trans later.alphabet
  accepting := earlier.accepting.trans later.accepting
  transitions := earlier.transitions.trans later.transitions

theorem extends_apply (a : Automaton) (step : BuildStep) : (step.apply a).Extends a := by
  have kept := extends_refl a
  cases step with
  | addState name => exact { kept with states := prefix_appendNew a.states name }
  | declareSymbol symbol => exact { kept with alphabet := prefix_appendNew a.alphabet symbol }
  | setInitial state => exact { kept with }
  | addAccepting state => exact { kept with accepting := prefix_appendNew a.accepting state }
  | addTransition t =>
    exact { kept with alphabet := prefix_appendNew a.alphabet t.symbol
                      transitions := List.prefix_append a.transitions [t] }
  | addBareTransition t => exact { kept with transitions := List.prefix_append a.transitions [t] }
  | setSpan span => exact { kept with }
  | setTransitionSpan transition span => exact { kept with }

theorem extends_foldl (a : Automaton) (steps : List BuildStep) :
    (steps.foldl BuildStep.apply a).Extends a := by
  induction steps generalizing a with
  | nil => exact extends_refl a
  | cons step steps ih => exact (ih (step.apply a)).trans (extends_apply a step)

theorem built_extends (name : String) (steps later : List BuildStep) :
    (built name (steps ++ later)).Extends (built name steps) := by
  rw [built, List.foldl_append]
  exact extends_foldl _ later

end Automaton

/-! ### Handles -/

/-- What a step gives back: where the state or the transition stands that it is about. -/
inductive Handle
  | state (k : Nat)
  | transition (k : Nat)

/-- A state or a transition. -/
inductive Part
  | state (name : String)
  | transition (t : Transition)

/-- The part that a step adds or finds. -/
def BuildStep.part? : BuildStep → Option Part
  | .addState name => some (.state name)
  | .addTransition t | .addBareTransition t => some (.transition t)
  | _ => none

def Automaton.partAt? (a : Automaton) : Handle → Option Part
  | .state k => (a.stateName? k).map .state
  | .transition k => a.transitions[k]?.map .transition

theorem Automaton.partAt?_addBareTransition (a : Automaton) (t : Transition) :
    (a.addBareTransition t).partAt? (.transition a.transitions.length) = some (.transition t) := by
  have placed : (a.transitions ++ [t])[a.transitions.length]? = some t :=
    List.getElem?_concat_length
  exact congrArg (Option.map Part.transition) placed

/-- Parts stay where they are. -/
theorem Automaton.Extends.partAt? {a b : Automaton} (more : b.Extends a) {handle : Handle}
    {part : Part} (found : a.partAt? handle = some part) : b.partAt? handle = some part := by
  cases handle with
  | state k =>
    obtain ⟨name, named, same⟩ := Option.map_eq_some_iff.mp found
    exact Option.map_eq_some_iff.mpr ⟨name, getElem?_of_prefix more.states named, same⟩
  | transition k =>
    obtain ⟨t, listed, same⟩ := Option.map_eq_some_iff.mp found
    exact Option.map_eq_some_iff.mpr ⟨t, getElem?_of_prefix more.transitions listed, same⟩

/-- So handles that lead to parts lead to the same parts later on. -/
theorem Automaton.Extends.map_partAt? {a b : Automaton} (more : b.Extends a)
    {handle? : Option Handle} {part? : Option Part}
    (found : handle?.map a.partAt? = part?.map some) :
    handle?.map b.partAt? = part?.map some := by
  cases handle? with
  | none => exact found
  | some handle =>
    cases part? with
    | none => cases found
    | some part => exact congrArg some (more.partAt? (Option.some.inj found))

/-- An automaton with the index that its states are found by. -/
structure IndexedAutomaton where
  automaton : Automaton
  index : Std.HashMap String Nat

namespace IndexedAutomaton

def empty (name : String) : IndexedAutomaton := ⟨.empty name, ∅⟩

def stateIndex? (b : IndexedAutomaton) (name : String) : Option Nat := b.index[name]?

/-- The index alone decides whether a state is new. -/
def addState (b : IndexedAutomaton) (name : String) : Nat × IndexedAutomaton :=
  match b.stateIndex? name with
  | some k => (k, b)
  | none =>
    (b.automaton.size,
      ⟨{ b.automaton with states := b.automaton.states ++ [name] },
        b.index.insert name b.automaton.size⟩)

/-- Takes one step and gives a handle to the part that it is about. -/
def take (b : IndexedAutomaton) : BuildStep → Option Handle × IndexedAutomaton
  | .addState name => (some (.state (b.addState name).1), (b.addState name).2)
  | .declareSymbol symbol => (none, { b with automaton := b.automaton.declareSymbol symbol })
  | .setInitial state => (none, { b with automaton := b.automaton.setInitial state })
  | .addAccepting state => (none, { b with automaton := b.automaton.addAccepting state })
  | .addTransition t => (some (.transition b.automaton.transitions.length),
      { b with automaton := b.automaton.addTransition t })
  | .addBareTransition t => (some (.transition b.automaton.transitions.length),
      { b with automaton := b.automaton.addBareTransition t })
  | .setSpan span => (none, { b with automaton := b.automaton.setSpan span })
  | .setTransitionSpan transition span =>
    (none, { b with automaton := b.automaton.setTransitionSpan transition span })

def built (name : String) (steps : List BuildStep) : IndexedAutomaton :=
  steps.foldl (fun b step => (b.take step).2) (empty name)

/-- A name is found where the state stands that has it. -/
def Faithful (b : IndexedAutomaton) : Prop :=
  ∀ name k, b.stateIndex? name = some k ↔ b.automaton.stateName? k = some name

variable {b : IndexedAutomaton}

theorem Faithful.mem_states (faithful : b.Faithful) {name : String} :
    name ∈ b.automaton.states ↔ ∃ k, b.stateIndex? name = some k := by
  simp only [faithful name, List.mem_iff_getElem?, Automaton.stateName?]

/-- An index that has no name of its own has none twice, and a new name goes to the end. -/
theorem Faithful.insert (faithful : b.Faithful) {name : String}
    (fresh : b.stateIndex? name = none) : Faithful
      ⟨{ b.automaton with states := b.automaton.states ++ [name] },
        b.index.insert name b.automaton.size⟩ := by
  intro other k
  have found : (b.index.insert name b.automaton.size)[other]? =
      if name = other then some b.automaton.size else b.stateIndex? other := by
    simp [Std.HashMap.getElem?_insert, stateIndex?]
  have placed : (b.automaton.states ++ [name])[k]? = some other ↔
      b.stateIndex? other = some k ∨ k = b.automaton.size ∧ name = other := by
    rw [getElem?_concat_eq_some_iff, faithful other]
    rfl
  change (b.index.insert name b.automaton.size)[other]? = some k ↔
    (b.automaton.states ++ [name])[k]? = some other
  rw [found, placed]
  by_cases same : name = other
  · subst same
    simp [fresh, eq_comm]
  · simp [same]

theorem Faithful.addState (faithful : b.Faithful) (name : String) :
    (b.addState name).2.Faithful ∧
    (b.addState name).2.automaton = b.automaton.addState name ∧
    (b.automaton.addState name).stateName? (b.addState name).1 = some name := by
  unfold IndexedAutomaton.addState
  split
  next k found =>
    have known : name ∈ b.automaton.states := faithful.mem_states.mpr ⟨k, found⟩
    have same : b.automaton.addState name = b.automaton := by
      rw [Automaton.addState, appendNew, if_pos known]
    refine ⟨faithful, same.symm, ?_⟩
    rw [same]
    exact (faithful name k).mp found
  next fresh =>
    have unknown : name ∉ b.automaton.states := by
      intro known
      obtain ⟨k, found⟩ := faithful.mem_states.mp known
      rw [fresh] at found
      contradiction
    have grown : b.automaton.addState name =
        { b.automaton with states := b.automaton.states ++ [name] } := by
      rw [Automaton.addState, appendNew, if_neg unknown]
    refine ⟨faithful.insert fresh, grown.symm, ?_⟩
    rw [grown]
    exact getElem?_concat_eq_some_iff.mpr (.inr ⟨rfl, rfl⟩)

/-- A step does to the automaton what it does without an index, keeps the index, and gives a handle
that leads to the part that it is about. -/
theorem Faithful.take (faithful : b.Faithful) (step : BuildStep) :
    (b.take step).2.Faithful ∧ (b.take step).2.automaton = step.apply b.automaton ∧
      (b.take step).1.map (step.apply b.automaton).partAt? = step.part?.map some := by
  cases step with
  | addState name =>
    obtain ⟨kept, automaton, named⟩ := faithful.addState name
    have found : (b.automaton.addState name).partAt? (.state (b.addState name).1) =
        some (.state name) := congrArg (Option.map Part.state) named
    exact ⟨kept, automaton, congrArg some found⟩
  | addTransition t | addBareTransition t =>
    exact ⟨faithful, rfl, congrArg some (Automaton.partAt?_addBareTransition _ t)⟩
  | _ => exact ⟨faithful, rfl, rfl⟩

theorem faithful_empty (name : String) : (empty name).Faithful := by
  intro other k
  simp [empty, stateIndex?, Automaton.empty, Automaton.stateName?]

theorem faithful_foldl (faithful : b.Faithful) (steps : List BuildStep) :
    (steps.foldl (fun b step => (b.take step).2) b).Faithful ∧
      (steps.foldl (fun b step => (b.take step).2) b).automaton =
        steps.foldl BuildStep.apply b.automaton := by
  induction steps generalizing b with
  | nil => exact ⟨faithful, rfl⟩
  | cons step steps ih =>
    obtain ⟨kept, automaton, _⟩ := faithful.take step
    have later := ih kept
    rwa [automaton] at later

theorem faithful_built (name : String) (steps : List BuildStep) :
    (built name steps).Faithful ∧ (built name steps).automaton = Automaton.built name steps :=
  faithful_foldl (faithful_empty name) steps

/-- The index finds what a search through the states finds. -/
theorem Faithful.stateIndex?_eq (faithful : b.Faithful) (once : b.automaton.states.Nodup)
    (name : String) : b.stateIndex? name = b.automaton.stateIndex? name := by
  apply Option.ext
  intro k
  rw [faithful name k]
  exact ⟨Automaton.stateIndex?_of_stateName? once, Automaton.stateName?_of_stateIndex?⟩

/-- A handle still leads to its part after whatever came later. -/
theorem map_partAt?_built (name : String) (before : List BuildStep) (step : BuildStep)
    (after : List BuildStep) : ((built name before).take step).1.map
      (built name (before ++ step :: after)).automaton.partAt? = step.part?.map some := by
  obtain ⟨earlier, same⟩ := faithful_built name before
  obtain ⟨_, _, found⟩ := earlier.take step
  refine Automaton.Extends.map_partAt? ?_ found
  rw [(faithful_built name (before ++ step :: after)).2, same, Automaton.built, List.foldl_append]
  exact Automaton.extends_foldl _ after

/-- What holds of an automaton and its index once `steps` have been taken. -/
structure Consistent (name : String) (steps : List BuildStep) (b : IndexedAutomaton) : Prop where
  automaton : b.automaton = steps.foldl BuildStep.apply (.empty name)
  index : ∀ name, b.stateIndex? name = b.automaton.stateIndex? name
  found : ∀ name k, b.stateIndex? name = some k ↔ b.automaton.stateName? k = some name
  states : FirstOccurrences (steps.filterMap BuildStep.state?) b.automaton.states
  alphabet : FirstOccurrences (steps.filterMap BuildStep.symbol?) b.automaton.alphabet
  accepting : FirstOccurrences (steps.filterMap BuildStep.accepting?) b.automaton.accepting
  transitions : b.automaton.transitions = steps.filterMap BuildStep.transition?
  declared : ∀ t, .addTransition t ∈ steps → t.symbol ∈ b.automaton.alphabet
  initial : b.automaton.initial = (steps.filterMap BuildStep.initial?).getLast?
  span : b.automaton.span = (steps.filterMap BuildStep.span?).getLast?
  transitionSpans : ∀ k, b.automaton.transitionSpan? k =
    (steps.filterMap (BuildStep.spanOf? k)).getLast?
  grows : ∀ later, (built name (steps ++ later)).automaton.Extends b.automaton
  handles : ∀ before step after, steps = before ++ step :: after →
    ((built name before).take step).1.map b.automaton.partAt? = step.part?.map some

theorem consistent_built (name : String) (steps : List BuildStep) :
    Consistent name steps (built name steps) := by
  obtain ⟨faithful, automaton⟩ := faithful_built name steps
  have states : FirstOccurrences (steps.filterMap BuildStep.state?)
      (built name steps).automaton.states := by
    rw [automaton, Automaton.states_built]
    exact firstOccurrences_distinct _
  have alphabet : FirstOccurrences (steps.filterMap BuildStep.symbol?)
      (built name steps).automaton.alphabet := by
    rw [automaton, Automaton.alphabet_built]
    exact firstOccurrences_distinct _
  have accepting : FirstOccurrences (steps.filterMap BuildStep.accepting?)
      (built name steps).automaton.accepting := by
    rw [automaton, Automaton.accepting_built]
    exact firstOccurrences_distinct _
  exact {
    automaton := automaton
    index := faithful.stateIndex?_eq states.once
    found := faithful
    states := states
    alphabet := alphabet
    accepting := accepting
    transitions := automaton ▸ Automaton.transitions_built name steps
    declared := fun t taken =>
      (alphabet.mem_iff t.symbol).mpr (List.mem_filterMap.mpr ⟨_, taken, rfl⟩)
    initial := automaton ▸ Automaton.initial_built name steps
    span := automaton ▸ Automaton.span_built name steps
    transitionSpans := fun k => automaton ▸ Automaton.transitionSpan?_built name steps k
    grows := by
      intro later
      rw [automaton, (faithful_built name (steps ++ later)).2]
      exact Automaton.built_extends name steps later
    handles := by
      rintro before step after rfl
      exact map_partAt?_built name before step after }

end IndexedAutomaton

end AlignPlan
