import AlignPlan.Proofs.Format.RoundTrip

/-! What the items of a block amount to. Each part of an automaton comes from items of certain
kinds alone: states from what is listed as states, the alphabet from what is listed as alphabet and
from transitions, and so on. States are looked up among all states of the block, so it does not
matter where in the block they are declared. -/
namespace AlignPlan

open Format

namespace Format.Clause

def newStates : Clause → List String
  | .states names => names
  | _ => []

def symbols : Clause → List String
  | .alphabet names => names
  | .transition _ symbol _ => [symbol]
  | _ => []

def initials : Clause → List String
  | .init name => [name]
  | _ => []

def accepted : Clause → List String
  | .accept names => names
  | _ => []

/-- Source, symbol and target. -/
def steps : Clause → List (String × String × String)
  | .transition source symbol target => [(source, symbol, target)]
  | _ => []

/-- The states that have to be there. -/
def references : Clause → List String
  | .init name => [name]
  | .accept names => names
  | .transition source _ target => [source, target]
  | _ => []

end Format.Clause

namespace Automaton

/-- An automaton without its places in a file. -/
def unplaced (a : Automaton) : Automaton := { a with span := none, transitionSpans := [] }

/-- The number of a state that is known to be listed. -/
def indexAmong (states : List String) (name : String) : Nat := (states.idxOf? name).getD 0

/-- What an automaton that has all its states becomes by the items of a block, places aside. -/
def extended (a : Automaton) (clauses : List Clause) : Automaton where
  name := a.name
  states := a.states
  alphabet := (clauses.flatMap Clause.symbols).foldl appendNew a.alphabet
  initial := (a.initial.toList ++ (clauses.flatMap Clause.initials).map (indexAmong a.states)).head?
  accepting :=
    ((clauses.flatMap Clause.accepted).map (indexAmong a.states)).foldl appendNew a.accepting
  transitions := a.transitions ++ (clauses.flatMap Clause.steps).map fun (source, symbol, target) =>
    ⟨indexAmong a.states source, symbol, indexAmong a.states target⟩
  span := none
  transitionSpans := []

/-- The items refer to states that are there, and there is at most one initial state. -/
structure Admits (a : Automaton) (clauses : List Clause) : Prop where
  known : ∀ name ∈ clauses.flatMap Clause.references, name ∈ a.states
  initial : a.initial.toList.length + (clauses.flatMap Clause.initials).length ≤ 1

variable {a b : Automaton} {file : Nat} {clause : Clause} {clauses : List Clause}

theorem extended_nil : a.extended [] = a.unplaced := by
  cases initial : a.initial <;> simp [extended, unplaced, initial]

theorem extended_cons :
    a.extended (clause :: clauses) = (a.extended [clause]).extended clauses := by
  cases initial : a.initial <;> cases clause <;> simp [extended, initial, Clause.initials]

theorem length_initial_extended : (a.extended [clause]).initial.toList.length =
    min 1 (a.initial.toList.length + clause.initials.length) := by
  cases initial : a.initial <;> cases clause <;> simp [extended, initial, Clause.initials]

theorem admits_cons : a.Admits (clause :: clauses) ↔
    a.Admits [clause] ∧ (a.extended [clause]).Admits clauses := by
  constructor
  · rintro ⟨known, initial⟩
    simp only [List.flatMap_cons, List.forall_mem_append, List.length_append] at known initial
    refine ⟨⟨by simpa using known.1, ?_⟩, ⟨known.2, ?_⟩⟩
    · simp only [List.flatMap_cons, List.flatMap_nil, List.append_nil]
      omega
    · rw [length_initial_extended]
      omega
  · rintro ⟨⟨first, one⟩, ⟨others, more⟩⟩
    rw [length_initial_extended] at more
    simp only [List.flatMap_cons, List.flatMap_nil, List.append_nil] at first one
    constructor
    · rw [List.flatMap_cons, List.forall_mem_append]
      exact ⟨first, others⟩
    · rw [List.flatMap_cons, List.length_append]
      omega

theorem stateIndex?_eq_some_iff {name : String} {state : Nat} :
    a.stateIndex? name = some state ↔ name ∈ a.states ∧ state = indexAmong a.states name := by
  unfold stateIndex? indexAmong
  cases found : a.states.idxOf? name with
  | none =>
    have missing : name ∉ a.states := List.idxOf?_eq_none_iff.mp found
    simp [missing]
  | some index =>
    have listed : name ∈ a.states := by
      by_contra missing
      cases found.symm.trans (List.idxOf?_eq_none_iff.mpr missing)
    simp [listed, eq_comm]

theorem resolve_eq_ok_iff {token : Token} {state : Nat} : a.resolve token = .ok state ↔
    token.value ∈ a.states ∧ state = indexAmong a.states token.value :=
  resolve_eq_ok.trans stateIndex?_eq_some_iff

theorem acceptNamed_eq_ok_iff {tokens : List Token} : a.acceptNamed tokens = .ok b ↔
    (∀ name ∈ tokens.map Located.value, name ∈ a.states) ∧
      b = { a with accepting :=
        ((tokens.map Located.value).map (indexAmong a.states)).foldl appendNew a.accepting } := by
  induction tokens generalizing a with
  | nil => simp [acceptNamed, eq_comm]
  | cons token tokens ih =>
    have first : a.acceptNamed (token :: tokens) = .ok b ↔
        ∃ state, a.resolve token = .ok state ∧
          (a.addAccepting state).acceptNamed tokens = .ok b := by
      rw [acceptNamed]
      cases a.resolve token <;> simp
    simp only [first, resolve_eq_ok_iff, ih, List.map_cons, List.forall_mem_cons, List.foldl_cons,
      and_assoc, exists_and_left, exists_eq_left]
    exact Iff.rfl

theorem admits_of_apply {item : Located Item} (h : a.apply file item = .ok b) :
    a.Admits [item.value.clause] := by
  have room : a.initial.toList.length ≤ 1 := by cases a.initial <;> simp
  obtain ⟨value, start, stop⟩ := item
  simp only [apply] at h
  cases value with
  | states names => exact ⟨by simp [Item.clause, Clause.references], room⟩
  | alphabet names => exact ⟨by simp [Item.clause, Clause.references], room⟩
  | init name =>
    simp only at h
    split at h
    next => cases h
    next fresh =>
      split at h
      next => cases h
      next state found =>
        have listed := (resolve_eq_ok_iff.mp found).1
        rw [Bool.not_eq_true, Option.isSome_eq_false_iff, Option.isNone_iff_eq_none] at fresh
        exact ⟨by simpa [Item.clause, Clause.references] using listed, by
          simp [fresh, Item.clause, Clause.initials]⟩
  | accept names =>
    have listed := (acceptNamed_eq_ok_iff.mp h).1
    exact ⟨by simpa [Item.clause, Clause.references] using listed, room⟩
  | transition source symbol target =>
    simp only at h
    split at h
    next => cases h
    next => cases h
    next s t sourceFound targetFound =>
      have first := (resolve_eq_ok_iff.mp sourceFound).1
      have second := (resolve_eq_ok_iff.mp targetFound).1
      exact ⟨by simpa [Item.clause, Clause.references] using ⟨first, second⟩, room⟩

section OneItem

theorem extended_states (a : Automaton) (names : List String) :
    a.extended [.states names] = a.unplaced := by
  cases initial : a.initial <;> simp [extended, unplaced, initial, Clause.symbols,
    Clause.initials, Clause.accepted, Clause.steps]

theorem extended_alphabet (a : Automaton) (symbols : List String) : a.extended [.alphabet symbols] =
    ({ a with alphabet := symbols.foldl appendNew a.alphabet } : Automaton).unplaced := by
  cases initial : a.initial <;> simp [extended, unplaced, initial, Clause.symbols,
    Clause.initials, Clause.accepted, Clause.steps]

theorem extended_init {a : Automaton} (fresh : a.initial = none) (name : String) :
    a.extended [.init name] = (a.setInitial (indexAmong a.states name)).unplaced := by
  simp [extended, unplaced, fresh, setInitial, Clause.symbols, Clause.initials, Clause.accepted,
    Clause.steps]

theorem extended_accept (a : Automaton) (names : List String) : a.extended [.accept names] =
    ({ a with accepting := (names.map (indexAmong a.states)).foldl appendNew a.accepting } :
      Automaton).unplaced := by
  cases initial : a.initial <;> simp [extended, unplaced, initial, Clause.symbols,
    Clause.initials, Clause.accepted, Clause.steps]

theorem extended_transition (a : Automaton) (source symbol target : String) :
    a.extended [.transition source symbol target] = (a.addTransition
      ⟨indexAmong a.states source, symbol, indexAmong a.states target⟩).unplaced := by
  cases initial : a.initial <;> simp [extended, unplaced, initial, addTransition, declareSymbol,
    addBareTransition, Clause.symbols, Clause.initials, Clause.accepted, Clause.steps]

end OneItem

/-- Items that are admitted are carried out. -/
theorem exists_apply (file : Nat) {item : Located Item} (admits : a.Admits [item.value.clause]) :
    ∃ b, a.apply file item = .ok b ∧ b.unplaced = a.extended [item.value.clause] := by
  obtain ⟨known, initial⟩ := admits
  simp only [List.flatMap_cons, List.flatMap_nil, List.append_nil] at known initial
  cases value : item.value with
  | states names =>
    rw [Item.clause, extended_states]
    exact ⟨a, apply_states (congrArg Item.clause value), rfl⟩
  | alphabet names =>
    rw [Item.clause, extended_alphabet]
    exact ⟨_, apply_alphabet (congrArg Item.clause value), rfl⟩
  | init name =>
    rw [value] at known initial
    have fresh : a.initial = none := by
      cases found : a.initial with
      | none => rfl
      | some state => simp [found, Item.clause, Clause.initials] at initial
    have listed := resolve_eq_ok_iff.mpr ⟨known name.value List.mem_cons_self, rfl⟩
    rw [Item.clause, extended_init fresh]
    refine ⟨_, ?_, rfl⟩
    simp only [apply, value, fresh, Option.isSome_none, Bool.false_eq_true, if_false, listed]
  | accept names =>
    rw [value] at known
    rw [Item.clause, extended_accept]
    refine ⟨_, ?_, rfl⟩
    simp only [apply, value]
    exact acceptNamed_eq_ok_iff.mpr ⟨known, rfl⟩
  | transition source symbol target =>
    rw [value] at known
    have first := resolve_eq_ok_iff.mpr ⟨known source.value List.mem_cons_self, rfl⟩
    have second := resolve_eq_ok_iff.mpr
      ⟨known target.value (List.mem_cons_of_mem _ List.mem_cons_self), rfl⟩
    rw [Item.clause, extended_transition]
    let t : Transition := ⟨indexAmong a.states source.value, symbol.value,
      indexAmong a.states target.value⟩
    refine ⟨(a.addTransition t).setTransitionSpan a.transitions.length
      ⟨item.start, item.stop, file⟩, ?_, rfl⟩
    simp only [apply, value, first, second, t]

/-- Neither what items amount to nor whether they are admitted depends on places. -/
theorem Admits.of_unplaced (admits : a.unplaced.Admits clauses) : a.Admits clauses :=
  ⟨admits.known, admits.initial⟩

theorem Admits.unplaced (admits : a.Admits clauses) : a.unplaced.Admits clauses :=
  ⟨admits.known, admits.initial⟩

theorem extended_unplaced : a.unplaced.extended clauses = a.extended clauses := rfl

variable {items : List (Located Item)}

theorem exists_applyAll (file : Nat) (admits : a.Admits (items.map fun item => item.value.clause)) :
    ∃ b, a.applyAll file items = .ok b ∧
      b.unplaced = a.extended (items.map fun item => item.value.clause) := by
  induction items generalizing a with
  | nil => exact ⟨a, rfl, extended_nil.symm⟩
  | cons item items ih =>
    rw [List.map_cons] at admits ⊢
    obtain ⟨first, others⟩ := admits_cons.mp admits
    obtain ⟨next, applied, same⟩ := exists_apply file first
    rw [← same] at others
    obtain ⟨b, rest, final⟩ := ih others.of_unplaced
    refine ⟨b, (applyAll_cons applied).trans rest, ?_⟩
    rw [final, extended_cons, ← same, extended_unplaced]

theorem admits_of_applyAll (h : a.applyAll file items = .ok b) :
    a.Admits (items.map fun item => item.value.clause) := by
  fun_induction applyAll file a items with
  | case1 a =>
    refine ⟨by simp, ?_⟩
    cases a.initial <;> simp
  | case2 => cases h
  | case3 a item items next applied ih =>
    have first := admits_of_apply applied
    obtain ⟨again, same, unplaced⟩ := exists_apply file first
    cases applied.symm.trans same
    refine admits_cons.mpr ⟨first, ?_⟩
    rw [← unplaced]
    exact (ih h).unplaced

/-- The states that clauses declare, before anything refers to them. -/
def withStates (name : String) (clauses : List Clause) : Automaton :=
  { empty name with states := distinct (clauses.flatMap Clause.newStates) }

theorem declareStates_eq (a : Automaton) (item : Located Item) : a.declareStates item =
    { a with states := item.value.clause.newStates.foldl appendNew a.states } := by
  cases value : item.value with
  | states names => exact declareStates_of_states (congrArg Item.clause value)
  | _ => exact declareStates_of_other fun names => by simp [value, Item.clause]

theorem foldl_declareStates (items : List (Located Item)) (a : Automaton) :
    let names := (items.map fun item => item.value.clause).flatMap Clause.newStates
    items.foldl declareStates a = { a with states := names.foldl appendNew a.states } := by
  induction items generalizing a with
  | nil => rfl
  | cons item items ih =>
    simp only [List.foldl_cons, declareStates_eq, ih, List.map_cons, List.flatMap_cons,
      List.foldl_append]

/-- A block can be carried out when its items are admitted by all of its states, and then it
amounts to what they amount to. -/
theorem exists_ofBlock_iff {name : String} {block : Located Block} :
    (∃ b, ofBlock file name block = .ok b ∧ b.unplaced = a) ↔
      (withStates name block.value.outline.clauses).Admits block.value.outline.clauses ∧
        a = (withStates name block.value.outline.clauses).extended block.value.outline.clauses := by
  have begun : (block.value.items.foldl declareStates
      ((empty name).setSpan ⟨block.start, block.stop, file⟩)).unplaced =
        withStates name block.value.outline.clauses := by
    rw [foldl_declareStates]
    rfl
  unfold ofBlock
  extract_lets items declared
  rw [← begun]
  constructor
  · rintro ⟨b, carried, rfl⟩
    have admits := admits_of_applyAll carried
    obtain ⟨again, same, unplaced⟩ := exists_applyAll file admits
    cases carried.symm.trans same
    exact ⟨admits.unplaced, unplaced⟩
  · rintro ⟨admits, rfl⟩
    exact exists_applyAll file admits.of_unplaced

end Automaton

end AlignPlan
