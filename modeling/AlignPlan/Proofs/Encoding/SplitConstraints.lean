import AlignPlan.Proofs.Encoding.EarlyJoin

/-! Where every constraint has one accepting state, both encodings ask it to be in that state. They
differ in one point: a constraint that is not deterministic may end in several states at once, and
the shared encoding asks all of them to accept where the replicated one asks for one of them. -/
namespace AlignPlan

open Planning

namespace Encoding

variable {options : Options} {trace : Automaton} {constraints : List Constraint} {r s : Encoding}
  {i j k : Nat} {plan : List Step}

/-- All current states accept if the target is among them and there is no other. -/
theorem all_accepting_iff_goalPosition {c : Constraint} (valid : c.automaton.WellFormed .constraint)
    (single : c.automaton.accepting.length = 1) (moves : List Move) :
    (∀ state ∈ c.automaton.run (activitiesOf moves), state ∈ c.automaton.accepting) ↔
      Replicated.goalPosition c ∈ c.positions (signals moves) ∧
      ∀ x ∈ c.automaton.run (activitiesOf moves), ∀ y ∈ c.automaton.run (activitiesOf moves),
        x = y := by
  obtain ⟨state, only⟩ := List.length_eq_one_iff.mp single
  have unjoined : Replicated.needsJoint c = false := by simp [Replicated.needsJoint, single]
  rw [Automaton.all_accepting_iff_of_single only,
    Replicated.goalPosition_mem_iff_of_single valid unjoined, heard_signals]

/-- The shared encoding has those plans of the replicated one after which every constraint is in
one state only. -/
theorem Paired.shared_solves_iff (p : Paired r s)
    (single : ∀ c ∈ r.constraints, c.automaton.accepting.length = 1)
    (edits : ∀ step ∈ plan, step.action ∈ ["sync", "add", "del"]) :
    (s.task j).Solves plan k ↔ (r.task i).Solves plan k ∧ ∀ c ∈ r.constraints,
      ∀ x ∈ c.automaton.run (activitiesIn plan), ∀ y ∈ c.automaton.run (activitiesIn plan),
        x = y := by
  have goals (c) (member : c ∈ r.constraints) :=
    all_accepting_iff_goalPosition (p.validR.constraints c member) (single c member)
  -- Both sides become the same moves: without joins their rules, ends and costs agree.
  rw [Shared.solves_iff p.shared p.validS, Replicated.solves_iff p.replicated p.validR]
  constructor
  · rintro ⟨moves, rfl, legal, ⟨done, accepted⟩, cost⟩
    have alone := join_not_mem_of_edits edits
    have goal (c) (member : c ∈ r.constraints) :=
      (goals c member moves).mp (accepted c ((p.constraints c).mp member))
    rw [p.after_trace, ← p.trace] at done
    rw [Rules.after_cost_of_alone _ alone] at cost
    rw [activitiesIn_map, ← p.trace]
    refine ⟨⟨moves, rfl, (p.legal_iff alone).mpr legal, ⟨done, fun c member => (goal c member).1⟩,
      ?_⟩, fun c member => (goal c member).2⟩
    rw [Rules.after_cost_of_alone _ alone, cost]
  · rintro ⟨⟨moves, rfl, legal, ⟨done, goal⟩, cost⟩, unsplit⟩
    have alone := join_not_mem_of_edits edits
    rw [activitiesIn_map] at unsplit
    rw [← p.after_trace, p.trace] at done
    rw [Rules.after_cost_of_alone _ alone] at cost
    refine ⟨moves, by rw [p.trace], (p.legal_iff alone).mp legal, ⟨done, fun c member => ?_⟩, ?_⟩
    · have member := (p.constraints c).mpr member
      exact (goals c member moves).mpr ⟨goal c member, unsplit c member⟩
    · rw [Rules.after_cost_of_alone _ alone, cost]

/-- With one accepting state each, the encodings agree on a plan unless it leaves a constraint in
several states at once. If the constraints are deterministic they agree on every plan. -/
theorem shared_solves_iff_replicated_unsplit
    (madeR : Encoding.of .replicated options trace constraints = .ok r)
    (madeS : Encoding.of .shared options trace constraints = .ok s)
    (single : ∀ c ∈ constraints, c.automaton.accepting.length = 1) (i j : Nat)
    (edits : ∀ step ∈ plan, step.action ∈ ["sync", "add", "del"]) (k : Nat) :
    ((s.task j).Solves plan k ↔ (r.task i).Solves plan k ∧ ∀ c ∈ constraints,
      ∀ x ∈ c.automaton.run (activitiesIn plan), ∀ y ∈ c.automaton.run (activitiesIn plan),
        x = y) ∧
    ((∀ c ∈ constraints, c.automaton.Deterministic) →
      ((s.task j).Solves plan k ↔ (r.task i).Solves plan k)) := by
  have p := paired madeR madeS
  obtain ⟨_, _, _, same⟩ := inputs_of_ok madeR
  have unsplit : (s.task j).Solves plan k ↔ (r.task i).Solves plan k ∧ ∀ c ∈ constraints,
      ∀ x ∈ c.automaton.run (activitiesIn plan), ∀ y ∈ c.automaton.run (activitiesIn plan),
        x = y := by
    simpa only [same] using p.shared_solves_iff (fun c member => single c ((same c).mp member)) edits
  refine ⟨unsplit, fun deterministic => unsplit.trans (and_iff_left fun c member x hx y hy => ?_)⟩
  exact Automaton.run_unique (deterministic c member) _ hx hy

/-- An insertion that brings a deterministic constraint to its accepting state solves both
tasks. -/
theorem shared_solves_unsplit_sample :
    ((Sample.encoding .shared ⟨.unconstrained, .unit, false⟩ [Sample.existence]).task 0).Solves
      [⟨"add", ["a"]⟩, ⟨"sync", ["t0", "b", "t1"]⟩] 1 := by
  have solved : ((Sample.encoding .replicated ⟨.unconstrained, .unit, false⟩
      [Sample.existence]).task 0).Solves [⟨"add", ["a"]⟩, ⟨"sync", ["t0", "b", "t1"]⟩] 1 := by
    decide +kernel
  exact ((shared_solves_iff_replicated_unsplit (Sample.made_existence _ _)
    (Sample.made_existence _ _) (by decide) 0 0 (by decide) 1).2 (by decide)).mpr solved

/-- The only `b` of the trace leaves the constraint in two states, one of which accepts. -/
theorem replicated_solves_split : ¬∀ options trace constraints r s,
    Encoding.of .replicated options trace constraints = .ok r →
    Encoding.of .shared options trace constraints = .ok s → constraints ≠ [] →
    (∀ c ∈ constraints, c.automaton.accepting.length = 1) → ∀ i j plan,
    (∀ step ∈ plan, step.action ∈ ["sync", "add", "del"]) →
      ((∃ k, (r.task i).Solves plan k) ↔ ∃ k, (s.task j).Solves plan k) := by
  intro claim
  have madeR := Sample.made_choice .replicated ⟨.unconstrained, .free, false⟩
  have madeS := Sample.made_choice .shared ⟨.unconstrained, .free, false⟩
  have solved : ((Sample.encoding .replicated ⟨.unconstrained, .free, false⟩
      [Sample.choice]).task 0).Solves [⟨"sync", ["t0", "b", "t1"]⟩] 0 := by decide +kernel
  obtain ⟨_, solved⟩ := (claim _ _ _ _ _ madeR madeS (by decide) (by decide) 0 0 _
    (by decide)).mp ⟨_, solved⟩
  have unsplit := ((paired madeR madeS).shared_solves_iff (i := 0) (by decide) (by decide)).mp
    solved
  exact absurd (unsplit.2 Sample.choice (by decide) 1 (by decide) 2 (by decide)) (by decide)

end Encoding

end AlignPlan
