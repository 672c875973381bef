import AlignPlan.Proofs.Encoding.Replicated
import AlignPlan.Proofs.Encoding.Shared
import Mathlib.Data.Option.Basic

/-! Both encodings make the same moves: what can be done in one can be done in the other, and the
states they reach say the same about the trace and the constraints. -/
namespace AlignPlan.Encoding

open Planning

/-- A state of the replicated encoding and one of the shared encoding that agree on the cost, the
current state of the trace and the current states of every constraint, and that hold no other
facts about current states. -/
structure Lockstep (trace : Automaton) (constraints : List Constraint) (x y : State) : Prop where
  cost : x.value totalCost = y.value totalCost
  traceState : ∃ k < trace.size,
    (∀ j < trace.size, ⟨"cur_state", [trace.traceObject j]⟩ ∈ x ↔ j = k) ∧
    ∀ arguments, ⟨"cur_state_trace", arguments⟩ ∈ y ↔ arguments = [trace.traceObject k]
  states : ∀ c ∈ constraints, ∀ k < c.automaton.size,
    ⟨"cur_state", [Replicated.stateObject c k]⟩ ∈ x ↔
      ⟨"cur_state", [Shared.automatonObject c, Shared.pooled k]⟩ ∈ y
  replicatedOnly : ∀ arguments, ⟨"cur_state", arguments⟩ ∈ x →
    (∃ k < trace.size, arguments = [trace.traceObject k]) ∨
    ∃ c ∈ constraints, ∃ k < c.automaton.size, arguments = [Replicated.stateObject c k]
  sharedOnly : ∀ arguments, ⟨"cur_state", arguments⟩ ∈ y →
    ∃ c ∈ constraints, ∃ k < c.automaton.size,
      arguments = [Shared.automatonObject c, Shared.pooled k]

/-- A replicated and a shared encoding of the same inputs. -/
structure Paired (r s : Encoding) : Prop where
  replicated : r.strategy = .replicated
  shared : s.strategy = .shared
  validR : r.Accepted
  validS : s.Accepted
  options : r.options = s.options
  trace : r.trace = s.trace
  constraints : ∀ c, c ∈ r.constraints ↔ c ∈ s.constraints

variable {options : Options} {trace : Automaton} {constraints : List Constraint} {r s : Encoding}
  {i j : Nat} {x y : State} {moves : List Move}

theorem paired (madeR : Encoding.of .replicated options trace constraints = .ok r)
    (madeS : Encoding.of .shared options trace constraints = .ok s) : Paired r s := by
  obtain ⟨replicated, optionsR, traceR, constraintsR⟩ := inputs_of_ok madeR
  obtain ⟨shared, optionsS, traceS, constraintsS⟩ := inputs_of_ok madeS
  exact ⟨replicated, shared, accepted madeR, accepted madeS, optionsR.trans optionsS.symm,
    traceR.trans traceS.symm, fun c => (constraintsR c).trans (constraintsS c).symm⟩

theorem join_not_mem_of_edits {trace : Automaton} (edits : ∀ step ∈ moves.map (Move.step trace),
    step.action ∈ ["sync", "add", "del"]) : .join ∉ moves := by
  intro member
  have named := edits _ (List.mem_map_of_mem member)
  simp [Move.step] at named

theorem some_of_mem_positions {c : Constraint} (alone : .join ∉ moves) {p : Position}
    (here : p ∈ c.positions (signals moves)) : ∃ k, p = some k := by
  rw [Constraint.positions_of_alone _ (.inr (by rwa [join_mem_signals]))] at here
  obtain ⟨k, _, rfl⟩ := List.mem_map.mp here
  exact ⟨k, rfl⟩

namespace Paired

/-- Without joins the rules of both encodings are the same. -/
theorem legal_iff (p : Paired r s) (alone : .join ∉ moves) :
    r.rules.Legal moves ↔ s.rules.Legal moves := by
  refine Rules.legal_congr p.trace (fun symbol => ?_) (by simp [rules, p.options]) alone
  simp [rules, mem_activities, p.trace, p.constraints]

theorem after_trace (p : Paired r s) :
    (s.rules.after moves).trace = (r.rules.after moves).trace := by
  simp [Rules.after, rules, p.trace]

/-- The facts about constraints are those of the same current states. -/
theorem lockstep (p : Paired r s) (alone : .join ∉ moves)
    (hx : r.Shows i (r.rules.after moves) x) (hy : s.Shows j (s.rules.after moves) y) :
    Lockstep r.trace r.constraints x y := by
  have namedR := Replicated.named p.replicated p.validR
  refine ⟨?_, ⟨(r.rules.after moves).trace, hx.within, ?_, ?_⟩, ?_, ?_, ?_⟩
  · rw [hx.cost, hy.cost, Rules.after_cost_of_alone _ alone, Rules.after_cost_of_alone _ alone]
  · intro k _
    exact Replicated.traceCurrent_mem p.replicated p.validR hx
  · intro arguments
    rw [hy.current _ (.inr rfl), traceFact, Shared.vocabulary_eq p.shared, p.after_trace, p.trace]
    simp [constraintFact, Shared.vocabulary]
  · intro c member k bound
    have has : c.Has (some k) := bound
    have inR := hx.constraintFact_mem namedR p.validR member has
    rw [Replicated.constraintFact_eq p.replicated] at inR
    rw [Shared.current_mem p.shared p.validS hy ((p.constraints c).mp member)]
    exact inR
  · intro arguments current
    rcases (hx.current _ (.inl rfl)).mp current with fact | ⟨c, member, q, here, fact⟩
    · simp only [traceFact, Atom.mk.injEq] at fact
      exact .inl ⟨_, hx.within, fact.2⟩
    · obtain ⟨k, rfl⟩ := some_of_mem_positions alone here
      rw [Replicated.constraintFact_eq p.replicated, Atom.mk.injEq] at fact
      have bound := Constraint.has_of_mem_positions (p.validR.constraints c member) here
      exact .inr ⟨c, member, k, bound, fact.2⟩
  · intro arguments current
    rcases (hy.current _ (.inl rfl)).mp current with fact | ⟨c, member, q, here, fact⟩
    · simp [traceFact, Shared.vocabulary_eq p.shared, Shared.vocabulary] at fact
    · obtain ⟨k, rfl⟩ := some_of_mem_positions alone here
      rw [Shared.constraintFact_some p.shared, Atom.mk.injEq] at fact
      have bound := Constraint.has_of_mem_positions (p.validS.constraints c member) here
      exact ⟨c, (p.constraints c).mpr member, k, bound, fact.2⟩

end Paired

/-- A sequence of synchronizations, insertions and deletions can be taken in both encodings or in
neither, and ends in states that agree. -/
theorem replicated_lockstep_shared
    (madeR : Encoding.of .replicated options trace constraints = .ok r)
    (madeS : Encoding.of .shared options trace constraints = .ok s) (i j : Nat) (plan : List Step)
    (edits : ∀ step ∈ plan, step.action ∈ ["sync", "add", "del"]) :
    Option.Rel (Lockstep trace constraints) ((r.task i).run? (r.task i).init plan)
      ((s.task j).run? (s.task j).init plan) := by
  have p := paired madeR madeS
  obtain ⟨_, _, rfl, same⟩ := inputs_of_ok madeR
  have fR : r.Faithful i := Replicated.faithful p.replicated p.validR
  have fS : s.Faithful j := Shared.faithful p.shared p.validS
  cases ranR : (r.task i).run? (r.task i).init plan with
  | some x =>
    obtain ⟨moves, rfl, legal, hx⟩ := fR.legal_of_run? ranR
    have alone := join_not_mem_of_edits edits
    obtain ⟨y, ranS, hy⟩ := fS.run?_of_legal ((p.legal_iff alone).mp legal)
    rw [p.trace, ranS, ← p.trace]
    have agree := p.lockstep alone hx hy
    exact .some ⟨agree.cost, agree.traceState, fun c member => agree.states c ((same c).mpr member),
      by simpa [same] using agree.replicatedOnly, by simpa [same] using agree.sharedOnly⟩
  | none =>
    cases ranS : (s.task j).run? (s.task j).init plan with
    | none => exact .none
    | some y =>
      obtain ⟨moves, rfl, legal, hy⟩ := fS.legal_of_run? ranS
      have alone := join_not_mem_of_edits edits
      obtain ⟨x, ran, _⟩ := fR.run?_of_legal ((p.legal_iff alone).mpr legal)
      rw [p.trace, ranR] at ran
      contradiction

/-- Where a task ends after an insertion and a step along the only transition of the trace. -/
def sampleEnd? (strategy : Strategy) : Option State :=
  let task := (Sample.encoding strategy ⟨.traceGuarded, .free, false⟩ [Sample.absence]).task 0
  task.run? task.init [⟨"add", ["t0", "b", "t1"]⟩, ⟨"sync", ["t0", "b", "t1"]⟩]

theorem lockstep_sample : ∃ x y, sampleEnd? .replicated = some x ∧ sampleEnd? .shared = some y ∧
    Lockstep Sample.trace [Sample.absence] x y := by
  have agree : Option.Rel (Lockstep Sample.trace [Sample.absence]) (sampleEnd? .replicated)
      (sampleEnd? .shared) :=
    replicated_lockstep_shared (Sample.made _ _) (Sample.made _ _) 0 0 _ (by decide)
  have ran : (sampleEnd? .replicated).isSome = true := by decide +kernel
  cases endR : sampleEnd? .replicated with
  | none => simp [endR] at ran
  | some x =>
    rw [endR] at agree
    cases endS : sampleEnd? .shared with
    | none => rw [endS] at agree; contradiction
    | some y =>
      rw [endS] at agree
      obtain ⟨same⟩ := agree
      exact ⟨x, y, rfl, rfl, same⟩

end AlignPlan.Encoding
