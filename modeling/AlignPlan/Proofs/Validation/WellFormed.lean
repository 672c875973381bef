import AlignPlan.Encoding.Inputs
import AlignPlan.Validation
import Mathlib.Data.List.Nodup

/-! What validation accepts, said without its order of checks. -/
namespace AlignPlan

namespace Automaton

/-- Everything an automaton refers to is there, and its names can become planning objects. -/
structure WellFormed (a : Automaton) (role : Role) : Prop where
  states : ∀ state ∈ a.states, Name.defect? state = none
  alphabet : ∀ symbol ∈ a.alphabet, Name.activityDefect? symbol = none
  initial : ∃ state, a.initial = some state ∧ state < a.size
  someAccepting : a.accepting ≠ []
  fewAccepting : role = .trace → a.accepting.length ≤ 1
  accepting : ∀ state ∈ a.accepting, state < a.size
  transitions : ∀ t ∈ a.transitions, t.source < a.size ∧ t.target < a.size ∧ t.symbol ∈ a.alphabet

variable {a : Automaton} {role : Role}

theorem badInitial?_eq_none :
    a.badInitial? = none ↔ ∃ state, a.initial = some state ∧ state < a.size := by
  unfold badInitial?
  cases a.initial <;> simp [hasState]

theorem badAccepting?_eq_none :
    a.badAccepting? role = none ↔ a.accepting ≠ [] ∧
      (role = .trace → a.accepting.length ≤ 1) ∧ ∀ state ∈ a.accepting, state < a.size := by
  unfold badAccepting?
  split
  next empty => simp_all
  next nonempty =>
    split
    next several =>
      simp only [reduceCtorEq, false_iff, not_and]
      intro _ few
      exact absurd (few several.1) (Nat.not_le_of_lt several.2)
    next few =>
      have few : role = .trace → a.accepting.length ≤ 1 := fun trace =>
        Nat.le_of_not_lt fun several => few ⟨trace, several⟩
      simp_all [hasState]

theorem transitionDefect?_eq_none {t : Transition} : a.transitionDefect? t = none ↔
    t.source < a.size ∧ t.target < a.size ∧ t.symbol ∈ a.alphabet := by
  unfold transitionDefect?
  by_cases source : t.source < a.size <;> by_cases target : t.target < a.size <;>
    by_cases symbol : t.symbol ∈ a.alphabet <;> simp [hasState, source, target, symbol]

theorem violation?_eq_none : a.violation? role = none ↔ a.WellFormed role := by
  simp only [violation?, Option.or_eq_none_iff, badState?, badSymbol?, badTransition?,
    List.findSome?_eq_none_iff, Option.map_eq_none_iff, badInitial?_eq_none,
    badAccepting?_eq_none, transitionDefect?_eq_none]
  constructor
  · rintro ⟨states, alphabet, initial, ⟨someAccepting, fewAccepting, accepting⟩, transitions⟩
    exact ⟨states, alphabet, initial, someAccepting, fewAccepting, accepting, transitions⟩
  · intro h
    exact ⟨h.states, h.alphabet, h.initial, ⟨h.someAccepting, h.fewAccepting, h.accepting⟩,
      h.transitions⟩

theorem WellFormed.start_lt (h : a.WellFormed role) : a.start < a.size := by
  obtain ⟨state, initial, bound⟩ := h.initial
  simpa [start, initial] using bound

theorem WellFormed.name_ne_empty (h : a.WellFormed role) {state : Nat} (bound : state < a.size) :
    a.stateName state ≠ "" := by
  intro empty
  have named := h.states _ (List.getElem_mem bound)
  have same : a.states[state] = "" := by
    simpa [stateName, stateName?, List.getElem?_eq_getElem bound] using empty
  rw [same] at named
  exact absurd named (by decide)

/-- States are told apart by their names. -/
theorem WellFormed.stateName_inj (h : a.WellFormed role) (distinct : a.states.Nodup) {j k : Nat}
    (bound : k < a.size) (same : a.stateName j = a.stateName k) : j = k := by
  by_cases within : j < a.size
  · apply (List.Nodup.getElem_inj_iff distinct).mp
    simpa [stateName, stateName?, List.getElem?_eq_getElem within,
      List.getElem?_eq_getElem bound] using same
  · have missing : a.stateName j = "" := by
      simp [stateName, stateName?, List.getElem?_eq_none (Nat.le_of_not_lt within)]
    exact absurd (same.symm.trans missing) (h.name_ne_empty bound)

theorem mem_states {state : String} : state ∈ a.states ↔ ∃ k < a.size, a.stateName k = state := by
  rw [List.mem_iff_getElem]
  constructor
  · rintro ⟨k, bound, rfl⟩
    exact ⟨k, bound, by simp [stateName, stateName?, List.getElem?_eq_getElem bound]⟩
  · rintro ⟨k, bound, rfl⟩
    exact ⟨k, bound, by simp [stateName, stateName?, List.getElem?_eq_getElem bound]⟩

/-- A trace ends in its only accepting state. -/
theorem WellFormed.accepting_trace (h : a.WellFormed .trace) :
    a.accepting = [a.firstAccepting] := by
  have length := h.fewAccepting rfl
  have nonempty := h.someAccepting
  match accepting : a.accepting with
  | [] => contradiction
  | [state] => simp [firstAccepting, accepting]
  | _ :: _ :: _ => simp [accepting] at length

theorem WellFormed.firstAccepting_lt (h : a.WellFormed .trace) : a.firstAccepting < a.size :=
  h.accepting _ (by rw [h.accepting_trace]; exact List.mem_singleton_self _)

end Automaton

theorem constraintChecks_pass {seen : List AutomatonId} {constraints : List Constraint} :
    (∀ check ∈ constraintChecks seen constraints, check.fault? = none) ↔
      (∀ c ∈ constraints, c.id ∉ seen) ∧
      (∀ c ∈ constraints, c.automaton.WellFormed .constraint) ∧
      constraints.Pairwise fun c d => c.id ≠ d.id := by
  induction constraints generalizing seen with
  | nil => simp [constraintChecks]
  | cons c cs ih =>
    unfold constraintChecks
    split
    next repeated =>
      constructor
      · intro pass
        have := pass _ List.mem_cons_self
        simp [Check.fault?] at this
      · rintro ⟨fresh, _⟩
        exact absurd repeated (fresh c List.mem_cons_self)
    next fresh =>
      have passes : (Check.automaton .constraint c.id.text c.automaton).fault? = none ↔
          c.automaton.WellFormed .constraint := by
        simp [Check.fault?, Automaton.fault?, Automaton.violation?_eq_none]
      rw [List.forall_mem_cons, passes, ih, List.forall_mem_cons, List.forall_mem_cons,
        List.pairwise_cons]
      simp only [List.mem_cons, not_or]
      constructor
      · rintro ⟨wellFormed, apart, others, distinct⟩
        exact ⟨⟨fresh, fun d member => (apart d member).2⟩, ⟨wellFormed, others⟩,
          fun d member same => (apart d member).1 same.symm, distinct⟩
      · rintro ⟨⟨_, apart⟩, ⟨wellFormed, others⟩, different, distinct⟩
        exact ⟨wellFormed, fun d member => ⟨fun same => different d member same.symm,
          apart d member⟩, others, distinct⟩

theorem inputFault?_eq_none {trace : Automaton} {constraints : List Constraint} :
    inputFault? trace constraints = none ↔ trace.WellFormed .trace ∧
      (∀ c ∈ constraints, c.automaton.WellFormed .constraint) ∧
      constraints.Pairwise fun c d => c.id ≠ d.id := by
  rw [inputFault?, inputChecks, List.findSome?_eq_none_iff, List.forall_mem_cons,
    constraintChecks_pass]
  simp [Check.fault?, Automaton.fault?, Automaton.violation?_eq_none]

end AlignPlan
