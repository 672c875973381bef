import AlignPlan.Proofs.Constraint.CanonicalOrder
import AlignPlan.Proofs.Encoding.Accepted
import AlignPlan.Proofs.Lists

/-! The shared encoding knows the states of constraints by their positions alone, so constraints
whose states are given other names are encoded as the same text. -/
namespace AlignPlan

namespace Constraint

def withStates (c : Constraint) (names : List String) : Constraint :=
  { c with automaton := { c.automaton with states := names } }

/-- The constraint `d` is `c` with other names for its states, which are valid and differ from one
another. They may be names that other automata have for their states or activities. -/
structure Renames (c d : Constraint) : Prop where
  unchanged : d = c.withStates d.automaton.states
  size : d.automaton.size = c.automaton.size
  valid : ∀ name ∈ d.automaton.states, Name.defect? name = none
  distinct : d.automaton.states.Nodup

variable {c d : Constraint}

theorem Renames.id (renames : c.Renames d) : d.id = c.id := by
  rw [renames.unchanged]
  rfl

theorem Renames.initial (renames : c.Renames d) :
    d.automaton.initial = c.automaton.initial := by
  rw [renames.unchanged]
  rfl

theorem Renames.alphabet (renames : c.Renames d) : d.automaton.alphabet = c.automaton.alphabet := by
  rw [renames.unchanged]
  rfl

theorem Renames.accepting (renames : c.Renames d) :
    d.automaton.accepting = c.automaton.accepting := by
  rw [renames.unchanged]
  rfl

theorem Renames.transitions (renames : c.Renames d) :
    d.automaton.transitions = c.automaton.transitions := by
  rw [renames.unchanged]
  rfl

theorem Renames.wellFormed (renames : c.Renames d) {role : Role}
    (wellFormed : c.automaton.WellFormed role) : d.automaton.WellFormed role where
  states := renames.valid
  alphabet := renames.alphabet ▸ wellFormed.alphabet
  initial := by
    rw [renames.size, renames.initial]
    exact wellFormed.initial
  someAccepting := renames.accepting ▸ wellFormed.someAccepting
  fewAccepting := renames.accepting ▸ wellFormed.fewAccepting
  accepting := by
    rw [renames.size, renames.accepting]
    exact wellFormed.accepting
  transitions := by
    rw [renames.size, renames.transitions, renames.alphabet]
    exact wellFormed.transitions

end Constraint

variable {options : Options} {trace : Automaton} {constraints renamed : List Constraint}

theorem ids_eq_of_renames (renames : List.Forall₂ Constraint.Renames constraints renamed) :
    constraints.map Constraint.id = renamed.map Constraint.id :=
  map_eq_of_forall₂ (fun _ _ one => one.id.symm) renames

theorem inputFault?_of_renames (renames : List.Forall₂ Constraint.Renames constraints renamed)
    (valid : inputFault? trace constraints = none) : inputFault? trace renamed = none := by
  obtain ⟨traceValid, wellFormed, distinct⟩ := inputFault?_eq_none.mp valid
  refine inputFault?_eq_none.mpr ⟨traceValid, ?_, ?_⟩
  · intro d member
    obtain ⟨c, listed, one⟩ := exists_mem_of_forall₂ renames member
    exact one.wellFormed (wellFormed c listed)
  · have ids : (constraints.map Constraint.id).Nodup := List.pairwise_map.mpr distinct
    rw [ids_eq_of_renames renames] at ids
    exact List.pairwise_map.mp ids

/-- Constraints are put in order by their ids. -/
theorem renames_canonicalOrder (renames : List.Forall₂ Constraint.Renames constraints renamed) :
    List.Forall₂ Constraint.Renames (canonicalOrder constraints) (canonicalOrder renamed) :=
  forall₂_mergeSort (fun c d c' d' one other => by rw [one.id, other.id]) renames

namespace Encoding.Shared

theorem registrations_of_renames (renames : List.Forall₂ Constraint.Renames constraints renamed) :
    registrations trace renamed = registrations trace constraints := by
  have automata :
      renamed.map (fun c => (⟨.automaton c.id, automatonType, c.id.text⟩ : Registration)) =
        constraints.map fun c => ⟨.automaton c.id, automatonType, c.id.text⟩ :=
    (map_eq_of_forall₂ (fun c d one => by rw [one.id]) renames).symm
  have pool : poolSize renamed = poolSize constraints :=
    congrArg (List.foldl max 0 ·) (map_eq_of_forall₂ (fun c d one => one.size.symm) renames).symm
  have symbols : activities trace renamed = activities trace constraints := by
    have alphabets := flatMap_eq_of_forall₂ (fun c d one => one.alphabet.symm) renames
    rw [activities, activities, alphabets]
  rw [registrations, registrations, automata, pool, activityRegistrations, activityRegistrations,
    symbols]

theorem constraintFacts_of_renames {c d : Constraint} (renames : c.Renames d) :
    constraintFacts d = constraintFacts c := by
  rw [constraintFacts, constraintFacts, automatonObject, automatonObject, Automaton.start,
    Automaton.start, renames.id, renames.initial, renames.accepting, renames.transitions]

theorem init_of_renames (renames : List.Forall₂ Constraint.Renames constraints renamed) :
    init trace renamed = init trace constraints := by
  have same : ∀ c d : Constraint, c.Renames d → constraintFacts c = constraintFacts d :=
    fun _ _ one => (constraintFacts_of_renames one).symm
  rw [init, init, flatMap_eq_of_forall₂ same renames]

end Encoding.Shared

namespace Encoding

/-- Constraints that are encoded are encoded under any other names of their states too, as the
same text. -/
theorem shared_text_of_renames {e : Encoding}
    (made : Encoding.of .shared options trace constraints = .ok e)
    (renames : List.Forall₂ Constraint.Renames constraints renamed) :
    ∃ e', Encoding.of .shared options trace renamed = .ok e' ∧
      e'.domain.render = e.domain.render ∧
      ∀ traceId, (e'.problem traceId).render = (e.problem traceId).render := by
  obtain ⟨valid, needed, apart, rfl⟩ := of_eq_ok.mp made
  have sorted := renames_canonicalOrder renames
  have registered : Strategy.shared.registrations trace (canonicalOrder renamed) =
      Strategy.shared.registrations trace (canonicalOrder constraints) :=
    Shared.registrations_of_renames sorted
  have nonempty : renamed ≠ [] := by
    rintro rfl
    exact needed rfl (List.forall₂_nil_right_iff.mp renames)
  refine ⟨_, of_eq_ok.mpr ⟨inputFault?_of_renames renames valid, fun _ => nonempty, ?_, rfl⟩,
    rfl, ?_⟩
  · rw [registered]
    exact apart
  · intro traceId
    simp only [problem, init, goal, registered, Shared.init_of_renames sorted]

/-- The states of one constraint get names that differ in letter case and the name of a trace
state, those of another the names of the activities, one of which is a state of both now. -/
theorem shared_text_sample :
    let options : Options := ⟨.traceGuarded, .unit, false⟩
    let constraints := [Sample.absence, Sample.existence]
    let renamed :=
      [Sample.absence.withStates ["a", "A", "0"], Sample.existence.withStates ["a", "b"]]
    List.Forall₂ Constraint.Renames constraints renamed ∧
    ∃ e', Encoding.of .shared options Sample.trace renamed = .ok e' ∧
      e'.domain.render = (Sample.encoding .shared options constraints).domain.render ∧
      (e'.problem 7).render = ((Sample.encoding .shared options constraints).problem 7).render := by
  intro options constraints renamed
  have renames : List.Forall₂ Constraint.Renames constraints renamed :=
    .cons ⟨rfl, rfl, by decide, by decide⟩ (.cons ⟨rfl, rfl, by decide, by decide⟩ .nil)
  obtain ⟨e', made, domain, problem⟩ := shared_text_of_renames (Sample.made_both .shared options)
    renames
  exact ⟨renames, e', made, domain, problem 7⟩

end Encoding

end AlignPlan
