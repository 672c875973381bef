import AlignPlan.Proofs.Encoding.Lockstep

/-! A step into the joint states may come before the last activity. Constraints that are joined
then hear nothing more, so that a replicated plan may be cheaper than every shared plan. It is
not if the constraints stay in accepting states. -/
namespace AlignPlan

open Planning

/-- The activity that a step synchronizes or inserts. -/
def Planning.Step.activity? (step : Step) : Option String :=
  if step.action = "sync" ∨ step.action = "add" then
    match step.arguments with
    | [_, symbol, _] | [symbol] => some symbol
    | _ => none
  else none

/-- The activities of a plan, in order. -/
def activitiesIn (plan : List Step) : List String := plan.filterMap Step.activity?

theorem activitiesIn_map (trace : Automaton) (moves : List Move) :
    activitiesIn (moves.map (Move.step trace)) = activitiesOf moves := by
  have same (m : Move) : (m.step trace).activity? = m.activity? := by cases m <;> rfl
  simp only [activitiesIn, activitiesOf, List.filterMap_map]
  congr 1
  exact funext same

/-- Whether constraints that a join finds in an accepting state are in accepting states at the
end. -/
def AcceptanceKept (constraints : List Constraint) (plan : List Step) : Prop :=
  ∀ before step after, plan = before ++ step :: after → step.action = "goto-goal" →
    ∀ c ∈ constraints, 2 ≤ c.automaton.accepting.length →
      (∃ state ∈ c.automaton.run (activitiesIn before), state ∈ c.automaton.accepting) →
      ∀ state ∈ c.automaton.run (activitiesIn plan), state ∈ c.automaton.accepting

namespace Encoding

variable {options : Options} {trace : Automaton} {constraints : List Constraint} {r s : Encoding}
  {i j k : Nat} {plan : List Step} {moves : List Move}

/-- Acceptance is kept where no activity comes after a join. -/
theorem acceptanceKept_of_joins_last
    (deterministic : ∀ c ∈ constraints, c.automaton.Deterministic)
    (last : ∀ before step after, plan = before ++ step :: after → step.action = "goto-goal" →
      ∀ later ∈ after, later.action ≠ "sync" ∧ later.action ≠ "add") :
    AcceptanceKept constraints plan := by
  rintro before step after rfl joins c member _ ⟨state, reached, accepting⟩ other found
  have silent : activitiesIn (step :: after) = [] := by
    rw [activitiesIn, List.filterMap_eq_nil_iff]
    intro later listed
    rcases List.mem_cons.mp listed with rfl | listed
    · simp [Step.activity?, joins]
    · simp [Step.activity?, last before step after rfl joins later listed]
  have split : activitiesIn (before ++ step :: after) = activitiesIn before := by
    simpa [activitiesIn, List.filterMap_append] using silent
  rw [split] at found
  rwa [Automaton.run_unique (deterministic c member) _ found reached]

theorem map_withoutJoins (trace : Automaton) (moves : List Move) :
    (withoutJoins moves).map (Move.step trace) =
      (moves.map (Move.step trace)).filter fun step => step.action ≠ "goto-goal" := by
  rw [withoutJoins, List.filter_map]
  congr 1
  refine List.filter_congr fun m _ => ?_
  cases m <;> simp [Move.step]

/-- A deterministic constraint that reaches its target is in accepting states only, unless it was
joined before. -/
theorem accepted_of_goalPosition {c : Constraint} (valid : c.automaton.WellFormed .constraint)
    (deterministic : c.automaton.Deterministic)
    (goal : Replicated.goalPosition c ∈ c.positions (signals moves))
    (kept : ∀ before rest, moves = before ++ .join :: rest → 2 ≤ c.automaton.accepting.length →
      (∃ state ∈ c.automaton.run (activitiesOf before), state ∈ c.automaton.accepting) →
      ∀ state ∈ c.automaton.run (activitiesOf moves), state ∈ c.automaton.accepting) :
    ∀ state ∈ c.automaton.run (activitiesOf moves), state ∈ c.automaton.accepting := by
  cases several : Replicated.needsJoint c with
  | true =>
    -- Only a join leads to the joint state, and only from an accepting state.
    rw [Replicated.goalPosition_of_several several] at goal
    obtain ⟨_, before, after, split, found⟩ := Constraint.joined_of_none_mem_positions goal
    obtain ⟨first, rest, same, rfl⟩ := join_of_signals_eq split
    rw [heard_signals] at found
    exact kept first rest same (Replicated.needsJoint_iff.mp several) found
  | false =>
    obtain ⟨single, only, target⟩ := Replicated.goalPosition_of_single valid.someAccepting several
    rw [target] at goal
    have reached := Constraint.mem_run_of_mem_positions goal
    rw [heard_signals] at reached
    intro state member
    rw [Automaton.run_unique deterministic _ member reached, only]
    exact List.mem_singleton_self _

theorem Paired.shared_solves_withoutJoins_iff (p : Paired r s)
    (free : s.options.gotoGoalCost = .free) (legal : r.rules.Legal moves)
    (done : (r.rules.after moves).trace = r.trace.firstAccepting) :
    (s.task j).Solves ((withoutJoins moves).map (Move.step s.trace)) (r.rules.after moves).cost ↔
      ∀ c ∈ s.constraints, ∀ state ∈ c.automaton.run (activitiesOf moves),
        state ∈ c.automaton.accepting := by
  have alone := join_not_mem_withoutJoins moves
  have legalS := (p.legal_iff alone).mp legal.withoutJoins
  rw [Shared.solves_iff p.shared p.validS]
  constructor
  · rintro ⟨moves', steps, legal', ⟨_, accepted⟩, _⟩
    have f : s.Faithful j := Shared.faithful p.shared p.validS
    rw [← f.eq_of_map_step legal' steps, activitiesOf_withoutJoins] at accepted
    exact accepted
  · intro accepted
    refine ⟨_, rfl, legalS, ⟨?_, ?_⟩, ?_⟩
    · rw [p.after_trace, ← p.trace, ← done]
      simp [Rules.after, taken_withoutJoins]
    · rwa [activitiesOf_withoutJoins]
    · have unpriced : s.rules.joinCost = none := by simp [rules, p.shared]
      have nothing : r.rules.joinCost = some 0 := by
        simp [rules, p.replicated, p.options, free, GotoGoalCost.amount]
      rw [Rules.after_cost, Rules.after_cost, edits_withoutJoins, unpriced, nothing]
      simp

/-- Acceptance is kept exactly if all constraints are in accepting states at the end. -/
theorem Paired.acceptanceKept_iff (p : Paired r s)
    (deterministic : ∀ c ∈ r.constraints, c.automaton.Deterministic)
    (goal : ∀ c ∈ r.constraints, Replicated.goalPosition c ∈ c.positions (signals moves)) :
    AcceptanceKept r.constraints (moves.map (Move.step r.trace)) ↔
      ∀ c ∈ r.constraints, ∀ state ∈ c.automaton.run (activitiesOf moves),
        state ∈ c.automaton.accepting := by
  simp only [AcceptanceKept, activitiesIn_map]
  constructor
  · intro kept c member
    refine accepted_of_goalPosition (p.validR.constraints c member) (deterministic c member)
      (goal c member) fun before rest same several found => ?_
    refine kept (before.map (Move.step r.trace)) (Move.join.step r.trace)
      (rest.map (Move.step r.trace)) (by simp [same]) rfl c member several ?_
    rwa [activitiesIn_map]
  · intro accepted _ _ _ _ _ c member _ _
    exact accepted c member

/-- The activities of a free replicated plan lead all constraints to accepting states, and the
plan without its joins is a shared plan of the same cost, exactly if no constraint leaves
acceptance after it was joined. Where no activity comes after a join, there is a shared plan of
this cost. -/
theorem shared_solves_iff_acceptanceKept
    (madeR : Encoding.of .replicated options trace constraints = .ok r)
    (madeS : Encoding.of .shared options trace constraints = .ok s)
    (free : options.gotoGoalCost = .free)
    (deterministic : ∀ c ∈ constraints, c.automaton.Deterministic) (i j : Nat)
    (solved : (r.task i).Solves plan k) :
    ((∀ c ∈ constraints, ∀ state ∈ c.automaton.run (activitiesIn plan),
      state ∈ c.automaton.accepting) ↔ AcceptanceKept constraints plan) ∧
    ((s.task j).Solves (plan.filter fun step => step.action ≠ "goto-goal") k ↔
      AcceptanceKept constraints plan) ∧
    ((∀ before step after, plan = before ++ step :: after → step.action = "goto-goal" →
        ∀ later ∈ after, later.action ≠ "sync" ∧ later.action ≠ "add") →
      ∃ plan', (s.task j).Solves plan' k) := by
  have p := paired madeR madeS
  obtain ⟨_, rfl, rfl, same⟩ := inputs_of_ok madeR
  obtain ⟨moves, rfl, legal, ⟨done, goal⟩, rfl⟩ :=
    (Replicated.solves_iff p.replicated p.validR).mp solved
  have deterministicR (c) (member : c ∈ r.constraints) := deterministic c ((same c).mp member)
  have kept : AcceptanceKept constraints (moves.map (Move.step r.trace)) ↔
      ∀ c ∈ r.constraints, ∀ state ∈ c.automaton.run (activitiesOf moves),
        state ∈ c.automaton.accepting := by
    rw [← p.acceptanceKept_iff deterministicR goal]
    simp only [AcceptanceKept, same]
  have stripped : (s.task j).Solves ((moves.map (Move.step r.trace)).filter
      fun step => step.action ≠ "goto-goal") (r.rules.after moves).cost ↔
      AcceptanceKept constraints (moves.map (Move.step r.trace)) := by
    rw [kept, ← map_withoutJoins, p.trace,
      p.shared_solves_withoutJoins_iff (p.options ▸ free) legal done]
    simp only [p.constraints]
  refine ⟨?_, stripped, fun last => ⟨_, stripped.mpr ?_⟩⟩
  · rw [kept, activitiesIn_map]
    simp only [same]
  · exact acceptanceKept_of_joins_last deterministic last

/-- A join after the last activity loses nothing. -/
theorem shared_solves_sample : ∃ plan, ((Sample.encoding .shared ⟨.unconstrained, .free, false⟩
    [Sample.absence]).task 0).Solves plan 0 := by
  have solved : ((Sample.encoding .replicated ⟨.unconstrained, .free, false⟩
      [Sample.absence]).task 0).Solves
      [⟨"sync", ["t0", "b", "t1"]⟩, ⟨"goto-goal", ["t1", "dummy"]⟩] 0 := by decide +kernel
  refine (shared_solves_iff_acceptanceKept (Sample.made _ _) (Sample.made _ _) rfl (by decide) 0 0
    solved).2.2 ?_
  rintro (_ | ⟨_, _ | ⟨_, _⟩⟩) step after same joins
  · rw [← (List.cons.inj same).1] at joins
    contradiction
  · obtain ⟨_, _, rfl⟩ : _ ∧ _ ∧ [] = after := by simpa using same
    simp
  · simp at same

/-- `a` must not occur and has to occur. -/
theorem run_sample (word : List String) : Sample.absence.automaton.run word = [2] ∨
    Sample.existence.automaton.run word = [0] ∧
      (Sample.absence.automaton.run word = [0] ∨ Sample.absence.automaton.run word = [1]) := by
  induction word using List.reverseRecOn with
  | nil => exact .inr ⟨rfl, .inl rfl⟩
  | append_singleton word symbol ih =>
    simp only [Automaton.run_concat]
    by_cases a : symbol = "a"
    · left
      rcases ih with broken | ⟨_, here | here⟩
      · rw [broken, a]; rfl
      · rw [here, a]; rfl
      · rw [here, a]; rfl
    · by_cases b : symbol = "b"
      · rcases ih with broken | ⟨waiting, here | here⟩
        · rw [broken, b]; exact .inl rfl
        · rw [waiting, here, b]; exact .inr ⟨rfl, .inr rfl⟩
        · rw [waiting, here, b]; exact .inr ⟨rfl, .inr rfl⟩
      · have stays (current : List Nat) :
            Sample.absence.automaton.advance current symbol = current ∧
            Sample.existence.automaton.advance current symbol = current := by
          constructor <;> apply moveAll_eq_self <;>
            simp [Automaton.successors, Sample.absence, Sample.existence, Ne.symm a, Ne.symm b]
        simpa [stays] using ih

/-- A join before the last activity lets a replicated plan end where no shared plan does. -/
theorem replicated_undercuts_shared : ¬∀ options trace constraints r s,
    Encoding.of .replicated options trace constraints = .ok r →
    Encoding.of .shared options trace constraints = .ok s → options.gotoGoalCost = .free →
    (∀ c ∈ constraints, c.automaton.Deterministic) → ∀ i j plan k, (r.task i).Solves plan k →
    ∃ plan' k', k' ≤ k ∧ (s.task j).Solves plan' k' := by
  intro claim
  have madeS := Sample.made_both .shared ⟨.unconstrained, .free, false⟩
  have solved : ((Sample.encoding .replicated ⟨.unconstrained, .free, false⟩
      [Sample.absence, Sample.existence]).task 0).Solves [⟨"sync", ["t0", "b", "t1"]⟩,
        ⟨"goto-goal", ["t1", "dummy"]⟩, ⟨"add", ["a"]⟩] 1 := by decide +kernel
  obtain ⟨_, _, _, solved⟩ := claim _ _ _ _ _ (Sample.made_both _ _) madeS rfl (by decide) 0 0 _ 1
    solved
  obtain ⟨moves, _, _, ⟨_, accepts⟩, _⟩ := (Shared.solves_iff rfl (accepted madeS)).mp solved
  have absence := accepts Sample.absence (by simp [Sample.encoding])
  have existence := accepts Sample.existence (by simp [Sample.encoding])
  -- Whatever the activities are, one of the two constraints does not accept.
  rcases run_sample (activitiesOf moves) with broken | ⟨waiting, _⟩
  · rw [broken] at absence
    exact absurd (absence 2 (by simp)) (by decide)
  · rw [waiting] at existence
    exact absurd (existence 0 (by simp)) (by decide)

end Encoding

end AlignPlan
