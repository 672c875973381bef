import AlignPlan.Proofs.Encoding.Lockstep

/-! A plan of the shared encoding is a plan of the replicated one, up to a step into the joint
states where there are any. -/
namespace AlignPlan.Encoding

open Planning

variable {options : Options} {trace : Automaton} {constraints : List Constraint} {r s : Encoding}
  {k : Nat} {plan : List Step}

section

variable {c : Constraint} {moves : List Move}

open Replicated (goalPosition needsJoint needsJoint_iff)

theorem goalPosition_mem_of_few (valid : c.automaton.WellFormed .constraint)
    (few : c.automaton.accepting.length < 2)
    (accepted : ∀ state ∈ c.automaton.run (activitiesOf moves), state ∈ c.automaton.accepting) :
    goalPosition c ∈ c.positions (signals moves) := by
  have single : needsJoint c = false := by
    rw [← Bool.not_eq_true, needsJoint_iff]
    omega
  rw [Replicated.goalPosition_mem_iff_of_single valid single, heard_signals]
  exact Automaton.accepts_of_all accepted

/-- After a join every constraint is at its target. -/
theorem goalPosition_mem_of_joined (valid : c.automaton.WellFormed .constraint)
    (alone : .join ∉ moves)
    (accepted : ∀ state ∈ c.automaton.run (activitiesOf moves), state ∈ c.automaton.accepting) :
    goalPosition c ∈ c.positions (signals (moves ++ [.join])) := by
  rw [signals_concat]
  apply Replicated.goalPosition_mem_of_accepts valid (by rwa [join_mem_signals])
  rw [heard_signals]
  exact Automaton.accepts_of_all accepted

end

/-- The shared goal asks for no less than the replicated one: every constraint is in some state,
and all states it is in accept. -/
theorem replicated_solves_of_shared
    (madeR : Encoding.of .replicated options trace constraints = .ok r)
    (madeS : Encoding.of .shared options trace constraints = .ok s) (i j : Nat)
    (solved : (s.task j).Solves plan k) :
    ((∃ c ∈ constraints, 2 ≤ c.automaton.accepting.length) →
      (r.task i).Solves (plan ++ [Move.join.step trace]) (k + options.gotoGoalCost.amount)) ∧
    ((∀ c ∈ constraints, c.automaton.accepting.length < 2) → (r.task i).Solves plan k) := by
  have p := paired madeR madeS
  obtain ⟨_, rfl, rfl, same⟩ := inputs_of_ok madeR
  obtain ⟨moves, rfl, legal, ⟨done, accepted⟩, rfl⟩ :=
    (Shared.solves_iff p.shared p.validS).mp solved
  have alone := legal.join_not_mem (by simp [rules, p.shared])
  have legalR := (p.legal_iff alone).mpr legal
  rw [p.after_trace, ← p.trace] at done
  have accepted (c) (member : c ∈ r.constraints) := accepted c ((p.constraints c).mp member)
  have cost : (r.rules.after moves).cost = (s.rules.after moves).cost := by
    simp [Rules.after_cost, List.count_eq_zero.mpr alone]
  rw [← p.trace]
  constructor
  · intro _
    have allowed : r.rules.Allows (r.rules.after moves).trace .join := by
      exact ⟨by simp [rules, p.replicated], done⟩
    refine (Replicated.solves_iff p.replicated p.validR).mpr ⟨moves ++ [.join], by simp,
      Rules.legal_concat.mpr ⟨legalR, allowed⟩, ⟨?_, fun c member => ?_⟩, ?_⟩
    · rw [Rules.after_concat]
      exact done
    · exact goalPosition_mem_of_joined (p.validR.constraints c member) alone (accepted c member)
    · rw [Rules.after_concat, ← cost]
      simp [Rules.advance, Rules.cost, rules, p.replicated]
  · intro few
    refine (Replicated.solves_iff p.replicated p.validR).mpr
      ⟨moves, rfl, legalR, ⟨done, fun c member => ?_⟩, cost⟩
    exact goalPosition_mem_of_few (p.validR.constraints c member) (few c ((same c).mp member))
      (accepted c member)

theorem replicated_solves_sample :
    ((Sample.encoding .replicated ⟨.unconstrained, .unit, false⟩ [Sample.absence]).task 0).Solves
      ([⟨"sync", ["t0", "b", "t1"]⟩] ++ [Move.join.step Sample.trace]) (0 + 1) := by
  have solved : ((Sample.encoding .shared ⟨.unconstrained, .unit, false⟩
      [Sample.absence]).task 0).Solves [⟨"sync", ["t0", "b", "t1"]⟩] 0 := by decide +kernel
  exact (replicated_solves_of_shared (Sample.made _ _) (Sample.made _ _) 0 0 solved).1
    ⟨Sample.absence, by simp, by decide⟩

end AlignPlan.Encoding
