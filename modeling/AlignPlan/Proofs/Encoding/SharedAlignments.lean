import AlignPlan.Proofs.Encoding.Shared

/-! The plans of the shared encoding are the alignments of its trace, at the same costs. What an
alignment is refers to the automata alone. -/
namespace AlignPlan

/-- Moves that run through a trace and leave every constraint in accepting states only, where
each edit costs one. Insertions next to a transition are made in its source. -/
structure IsAlignment (trace : Automaton) (constraints : List Constraint) (moves : List Move)
    (cost : Nat) : Prop where
  path : trace.Path trace.start (taken moves) trace.firstAccepting
  guarded : ∀ before t rest, moves = before ++ .addAlong t :: rest →
    t ∈ trace.transitions ∧ trace.Path trace.start (taken before) t.source
  accepted : ∀ c ∈ constraints, ∀ state ∈ c.automaton.run (activitiesOf moves),
    state ∈ c.automaton.accepting
  cost : cost = moves.countP Move.isEdit

namespace Encoding

open Planning

variable {options : Options} {trace : Automaton} {constraints : List Constraint} {e : Encoding}

theorem isAlignment_iff (shared : e.strategy = .shared) {moves : List Move} {k : Nat}
    (alone : .join ∉ moves)
    (adds : ∀ symbol, .add symbol ∈ moves →
      e.options.addPolicy = .unconstrained ∧ symbol ∈ e.rules.activities)
    (alongs : ∀ t, .addAlong t ∈ moves → e.options.addPolicy = .traceGuarded) :
    IsAlignment e.trace e.constraints moves k ↔ e.rules.Legal moves ∧
      ((e.rules.after moves).trace = e.trace.firstAccepting ∧ ∀ c ∈ e.constraints,
        ∀ state ∈ c.automaton.run (activitiesOf moves), state ∈ c.automaton.accepting) ∧
      (e.rules.after moves).cost = k := by
  have unpriced : e.rules.joinCost = none := by simp [rules, shared]
  have legal : e.rules.Legal moves ∧ (e.rules.after moves).trace = e.trace.firstAccepting ↔ _ :=
    Rules.legal_iff_path alone adds alongs
  rw [Rules.after_cost, unpriced, ← and_assoc, ← and_assoc, legal]
  constructor
  · rintro ⟨path, guarded, accepted, cost⟩
    exact ⟨⟨⟨path, guarded⟩, accepted⟩, by simp [cost]⟩
  · rintro ⟨⟨⟨path, guarded⟩, accepted⟩, cost⟩
    exact ⟨path, guarded, accepted, by simpa using cost.symm⟩

/-- Every step with objects of the right types is a move, and such moves solve the task exactly
if they are an alignment. -/
theorem shared_solves_iff_isAlignment (made : Encoding.of .shared options trace constraints = .ok e)
    (traceId : Nat) :
    (∀ step, (e.task traceId).Ground step → ∃ move : Move, step = move.step trace) ∧
    ∀ moves : List Move, (∀ move ∈ moves, (e.task traceId).Ground (move.step trace)) →
      ∀ k, (e.task traceId).Solves (moves.map (Move.step trace)) k ↔
        IsAlignment trace constraints moves k := by
  have valid := accepted made
  obtain ⟨shared, rfl, rfl, same⟩ := inputs_of_ok made
  have f : e.Faithful traceId := Shared.faithful shared valid
  refine ⟨fun step ground => ?_, fun moves ground k => ?_⟩
  · refine (f.move_of_ground ground).resolve_right fun joins => ?_
    obtain ⟨_, _, found, _⟩ := ground
    simpa [joins] using Shared.name_of_action? shared found
  · have reordered : IsAlignment e.trace constraints moves k ↔
        IsAlignment e.trace e.constraints moves k := by
      constructor <;> rintro ⟨path, guarded, accepted, cost⟩
      · exact ⟨path, guarded, fun c member => accepted c ((same c).mp member), cost⟩
      · exact ⟨path, guarded, fun c member => accepted c ((same c).mpr member), cost⟩
    have alone : .join ∉ moves := by
      intro member
      obtain ⟨_, _, found, _⟩ := ground _ member
      simpa [Move.step] using Shared.name_of_action? shared found
    have adds (symbol) (member : Move.add symbol ∈ moves) :=
      f.policy_of_ground_add (ground _ member)
    have alongs (t) (member : Move.addAlong t ∈ moves) :=
      f.policy_of_ground_addAlong (ground _ member)
    rw [reordered, isAlignment_iff shared alone adds alongs, Shared.solves_iff shared valid]
    constructor
    · rintro ⟨moves', steps, legal, solved⟩
      rw [f.eq_of_map_step legal steps]
      exact ⟨legal, solved⟩
    · rintro ⟨legal, solved⟩
      exact ⟨moves, rfl, legal, solved⟩

/-- An edit that no constraint asks for still makes an alignment. -/
theorem isAlignment_sample : IsAlignment Sample.trace [Sample.absence]
    [.sync ⟨0, "b", 1⟩, .add "b"] 1 :=
  ((shared_solves_iff_isAlignment (Sample.made .shared ⟨.unconstrained, .free, false⟩) 0).2 _
    (by decide +kernel) 1).mp (by decide +kernel)

end Encoding

end AlignPlan
