import AlignPlan.Proofs.Encoding.Replicated

/-! No replicated plan skips a part of the trace: whatever else it does, its steps on the trace
are a path to the accepting state, and its cost is the number of its edits and the price of its
joins. -/
namespace AlignPlan

open Planning

/-- Whether a step is one of those that take a transition of the trace. -/
def Planning.Step.takesTrace (step : Step) : Bool := step.action = "sync" ∨ step.action = "del"

def Planning.Step.isEdit (step : Step) : Bool := step.action = "add" ∨ step.action = "del"

def Planning.Step.isJoin (step : Step) : Bool := step.action = "goto-goal"

section

variable (trace : Automaton) (moves : List Move)

theorem arguments_of_takesTrace : ((moves.map (Move.step trace)).filter Step.takesTrace).map
    Step.arguments = (taken moves).map trace.transitionObjects := by
  induction moves with
  | nil => rfl
  | cons m moves ih =>
    simp only [taken] at ih ⊢
    cases m <;>
      simpa [Step.takesTrace, Move.step, Move.taken?, List.filterMap_cons] using ih

theorem countP_isEdit : (moves.map (Move.step trace)).countP Step.isEdit =
    moves.countP Move.isEdit := by
  rw [List.countP_map]
  refine List.countP_congr fun m _ => ?_
  cases m <;> simp [Step.isEdit, Move.step, Move.isEdit]

theorem countP_isJoin : (moves.map (Move.step trace)).countP Step.isJoin =
    moves.count .join := by
  rw [List.countP_map, List.count]
  refine List.countP_congr fun m _ => ?_
  cases m <;> simp [Step.isJoin, Move.step]

end

namespace Encoding

variable {options : Options} {trace : Automaton} {constraints : List Constraint} {r : Encoding}
  {k : Nat} {plan : List Step}

/-- The steps of a plan on the trace are a path from its initial to its accepting state. Where
the trace is linear they are all its transitions, each once and in order. -/
theorem replicated_solves_consumes
    (made : Encoding.of .replicated options trace constraints = .ok r) (traceId : Nat)
    (solved : (r.task traceId).Solves plan k) :
    (∃ ts, trace.Path trace.start ts trace.firstAccepting ∧
      (plan.filter Step.takesTrace).map Step.arguments = ts.map trace.transitionObjects) ∧
    k = plan.countP Step.isEdit + options.gotoGoalCost.amount * plan.countP Step.isJoin ∧
    ∀ line, trace.Linear line →
      (plan.filter Step.takesTrace).map Step.arguments = line.map trace.transitionObjects ∧
      (plan.filter Step.takesTrace).length = line.length := by
  have valid := accepted made
  obtain ⟨replicated, rfl, rfl, _⟩ := inputs_of_ok made
  obtain ⟨moves, rfl, legal, ⟨done, _⟩, rfl⟩ := (Replicated.solves_iff replicated valid).mp solved
  have path : r.trace.Path r.trace.start (taken moves) r.trace.firstAccepting := done ▸ legal.path
  have arguments := arguments_of_takesTrace r.trace moves
  refine ⟨⟨taken moves, path, arguments⟩, ?_, fun line linear => ?_⟩
  · rw [Rules.after_cost, countP_isEdit, countP_isJoin]
    simp [rules, replicated]
  · rw [linear.eq_of_path path] at arguments
    have length := congrArg List.length arguments
    rw [List.length_map, List.length_map] at length
    exact ⟨arguments, length⟩

/-- A plan that inserts an activity, takes the only transition of the trace and pays for a
join. -/
def samplePlan : List Step :=
  [⟨"add", ["b"]⟩, ⟨"sync", ["t0", "b", "t1"]⟩, ⟨"goto-goal", ["t1", "dummy"]⟩]

theorem consumes_sample : samplePlan.countP Step.isEdit + 1 * samplePlan.countP Step.isJoin = 2 ∧
    (samplePlan.filter Step.takesTrace).map Step.arguments = [["t0", "b", "t1"]] := by
  have solved : ((Sample.encoding .replicated ⟨.unconstrained, .unit, false⟩
      [Sample.absence]).task 0).Solves samplePlan 2 := by decide +kernel
  have linear : Sample.trace.Linear [⟨0, "b", 1⟩] :=
    ⟨⟨by decide, rfl, rfl⟩, by decide, by decide⟩
  obtain ⟨_, cost, line⟩ := replicated_solves_consumes (Sample.made _ _) 0 solved
  exact ⟨cost.symm, (line _ linear).1⟩

end Encoding

end AlignPlan
