import AlignPlan.Proofs.Encoding.Replicated

/-! Replicated plans that cost nothing, where a join is free. They take transitions of the trace
and join, and if no path of the trace comes back the joins are at its end. So there is one exactly
if the trace conforms: some path through it spells a word that every constraint accepts. -/
namespace AlignPlan

open Planning

/-- Some path from the initial to the accepting state of a trace spells a word that every
constraint accepts. -/
def Conforms (trace : Automaton) (constraints : List Constraint) : Prop :=
  ∃ ts, trace.Path trace.start ts trace.firstAccepting ∧
    ∀ c ∈ constraints, c.automaton.Accepts (ts.map Transition.symbol)

section

variable (ts : List Transition)

theorem taken_map_sync : taken (ts.map .sync) = ts := by
  induction ts with
  | nil => rfl
  | cons t ts ih => simpa [taken, Move.taken?] using ih

theorem join_not_mem_map_sync : Move.join ∉ ts.map .sync := by simp

theorem isEdit_map_sync : ∀ m ∈ ts.map Move.sync, m.isEdit = false := by
  rintro _ listed
  obtain ⟨t, _, rfl⟩ := List.mem_map.mp listed
  rfl

theorem activitiesOf_map_sync : activitiesOf (ts.map .sync) = ts.map Transition.symbol := by
  rw [activitiesOf_of_no_edits (isEdit_map_sync ts), taken_map_sync]

end

/-- The transitions of a path can be synchronized one after the other. -/
theorem Rules.legal_map_sync {r : Rules} {ts : List Transition} {target : Nat}
    (path : r.trace.Path r.trace.start ts target) :
    r.Legal (ts.map .sync) ∧ (r.after (ts.map .sync)).trace = target := by
  have iff : r.Legal (ts.map .sync) ∧ (r.after (ts.map .sync)).trace = target ↔ _ :=
    Rules.legal_iff_path (join_not_mem_map_sync ts) (by simp) (by simp)
  rw [iff, taken_map_sync]
  refine ⟨path, fun before t rest same => ?_⟩
  have listed : Move.addAlong t ∈ ts.map .sync := by simp [same]
  simp at listed

namespace Encoding

variable {options : Options} {trace : Automaton} {constraints : List Constraint} {r e : Encoding}
  {traceId : Nat} {moves : List Move}

/-- A constraint at its target accepts the activities of some moves, if none of them comes after
a join. -/
theorem accepts_of_goalPosition {c : Constraint} (valid : c.automaton.WellFormed .constraint)
    (goal : Replicated.goalPosition c ∈ c.positions (signals moves))
    (silent : ∀ before after, moves = before ++ .join :: after → activitiesOf after = []) :
    c.automaton.Accepts (activitiesOf moves) := by
  cases several : Replicated.needsJoint c with
  | true =>
    rw [Replicated.goalPosition_of_several several] at goal
    obtain ⟨_, before, after, split, found⟩ := Constraint.joined_of_none_mem_positions goal
    obtain ⟨first, rest, rfl, rfl⟩ := join_of_signals_eq split
    rw [heard_signals] at found
    rwa [activitiesOf_append, activitiesOf_cons_join, silent first rest rfl, List.append_nil]
  | false =>
    rwa [Replicated.goalPosition_mem_iff_of_single valid several, heard_signals] at goal

theorem conforms_of_free_plan (replicated : e.strategy = .replicated) (valid : e.Accepted)
    (acyclic : e.trace.Acyclic) {plan : List Step} (solved : (e.task traceId).Solves plan 0) :
    Conforms e.trace e.constraints := by
  obtain ⟨moves, rfl, legal, ⟨done, goal⟩, cost⟩ :=
    (Replicated.solves_iff replicated valid).mp solved
  have unedited : ∀ m ∈ moves, m.isEdit = false := by
    have none : moves.countP Move.isEdit = 0 := by
      rw [Rules.after_cost] at cost
      omega
    simpa [List.countP_eq_zero] using none
  have silent (before after : List Move) (same : moves = before ++ .join :: after) :
      activitiesOf after = [] := by
    subst same
    -- A join needs the trace at its end, and no path leads from there back to it.
    have rest : ∀ m ∈ after, m.isEdit = false := fun m member => unedited m (by simp [member])
    rw [activitiesOf_of_no_edits rest, legal.taken_nil_after_join acyclic done]
    rfl
  refine ⟨taken moves, done ▸ legal.path, fun c member => ?_⟩
  rw [← activitiesOf_of_no_edits unedited]
  exact accepts_of_goalPosition (valid.constraints c member) (goal c member) silent

theorem free_plan_of_conforms (replicated : e.strategy = .replicated) (valid : e.Accepted)
    (free : e.options.gotoGoalCost = .free) (conforms : Conforms e.trace e.constraints) :
    ∃ plan, (e.task traceId).Solves plan 0 := by
  obtain ⟨ts, path, accepted⟩ := conforms
  obtain ⟨legal, done⟩ := Rules.legal_map_sync (r := e.rules) path
  have joinCost : e.rules.joinCost = some 0 := by
    simp [rules, replicated, free, GotoGoalCost.amount]
  have allowed : e.rules.Allows (e.rules.after (ts.map .sync)).trace .join :=
    ⟨by simp [joinCost], done⟩
  refine ⟨_, (Replicated.solves_iff replicated valid).mpr ⟨ts.map .sync ++ [.join], rfl,
    Rules.legal_concat.mpr ⟨legal, allowed⟩, ⟨?_, fun c member => ?_⟩, ?_⟩⟩
  · rw [Rules.after_concat]
    exact done
  · rw [signals_concat]
    apply Replicated.goalPosition_mem_of_accepts (valid.constraints c member)
    · rw [join_mem_signals]
      exact join_not_mem_map_sync ts
    · rw [heard_signals, activitiesOf_map_sync]
      exact accepted c member
  · have none : (ts.map Move.sync ++ [Move.join]).countP Move.isEdit = 0 := by
      rw [List.countP_append, List.countP_eq_zero.mpr (by simpa using isEdit_map_sync ts)]
      rfl
    rw [Rules.after_cost, none, joinCost]
    simp

/-- A replicated task has a free plan exactly if a path through the trace leads every constraint
to an accepting state as the only one. -/
theorem exists_free_plan_iff_conforms
    (made : Encoding.of .replicated options trace constraints = .ok r)
    (free : options.gotoGoalCost = .free) (acyclic : trace.Acyclic)
    (deterministic : ∀ c ∈ constraints, c.automaton.Deterministic) (traceId : Nat) :
    (∃ plan, (r.task traceId).Solves plan 0) ↔
      ∃ ts, trace.Path trace.start ts trace.firstAccepting ∧ ∀ c ∈ constraints,
        ∃ state ∈ c.automaton.accepting, ∀ x,
          x ∈ c.automaton.run (ts.map Transition.symbol) ↔ x = state := by
  have valid := accepted made
  obtain ⟨replicated, rfl, rfl, same⟩ := inputs_of_ok made
  have conforms : Conforms r.trace r.constraints ↔ ∃ ts, r.trace.Path r.trace.start ts
      r.trace.firstAccepting ∧ ∀ c ∈ constraints, ∃ state ∈ c.automaton.accepting, ∀ x,
        x ∈ c.automaton.run (ts.map Transition.symbol) ↔ x = state := by
    simp only [Conforms, same]
    refine exists_congr fun ts => and_congr_right fun _ => forall₂_congr fun c member => ?_
    exact (deterministic c member).accepts_iff
  rw [← conforms]
  constructor
  · rintro ⟨plan, solved⟩
    exact conforms_of_free_plan replicated valid acyclic solved
  · exact free_plan_of_conforms replicated valid free

/-- The trace conforms to one constraint, which has two accepting states, but not to another. -/
theorem free_plan_sample :
    (∃ plan, ((Sample.encoding .replicated ⟨.traceGuarded, .free, false⟩
      [Sample.absence]).task 0).Solves plan 0) ∧
    ¬∃ plan, ((Sample.encoding .replicated ⟨.unconstrained, .free, false⟩
      [Sample.absence, Sample.existence]).task 0).Solves plan 0 := by
  have acyclic : Sample.trace.Acyclic := Automaton.acyclic_of_increasing (by decide)
  have path : Sample.trace.Path 0 [⟨0, "b", 1⟩] 1 := ⟨by decide, rfl, rfl⟩
  constructor
  · refine (exists_free_plan_iff_conforms (Sample.made _ _) rfl acyclic (by decide) 0).mpr
      ⟨_, path, fun c member => ?_⟩
    obtain rfl := List.mem_singleton.mp member
    exact ⟨1, by decide, fun x => List.mem_singleton⟩
  · intro solved
    obtain ⟨ts, path', accepted⟩ := (exists_free_plan_iff_conforms (Sample.made_both _ _) rfl
      acyclic (by decide) 0).mp solved
    have linear : Sample.trace.Linear [⟨0, "b", 1⟩] := ⟨path, by decide, by decide⟩
    obtain rfl := linear.eq_of_path path'
    obtain ⟨state, accepting, only⟩ := accepted Sample.existence (by simp)
    obtain rfl : state = 1 := by simpa [Sample.existence] using accepting
    exact absurd ((only 1).mpr rfl) (by decide)

end Encoding

end AlignPlan
