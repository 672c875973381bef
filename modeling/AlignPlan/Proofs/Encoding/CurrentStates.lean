import AlignPlan.Proofs.Encoding.Replicated
import AlignPlan.Proofs.Encoding.Shared

/-! What every planning state that can be reached says about current states: one state of the
trace, and for every constraint at least one of its own, exactly one if it is deterministic. -/
namespace AlignPlan.Encoding

open Planning

/-- The positions that an encoding has objects for: all states, and the joint state of a
constraint with several accepting states in the replicated encoding. -/
def Owns (e : Encoding) (c : Constraint) : Position → Prop
  | some state => state < c.automaton.size
  | none => e.strategy = .replicated ∧ 2 ≤ c.automaton.accepting.length

structure CurrentStates (e : Encoding) (traceId : Nat) (s : State) : Prop where
  /-- One object of the type of trace states is current. -/
  trace : ∃! o, o ∈ (e.task traceId).members (some traceStateType) ∧
    ⟨e.vocabulary.traceCurrent, [o]⟩ ∈ s
  constraint : ∀ c ∈ e.constraints, ∃ p, e.Owns c p ∧ e.constraintFact c p ∈ s
  deterministic : ∀ c ∈ e.constraints, c.automaton.Deterministic →
    ∃! p, e.Owns c p ∧ e.constraintFact c p ∈ s
  /-- Nothing else is current: a fact is about the trace or about a position that belongs to one
  constraint. -/
  owned : ∀ a ∈ s, IsCurrent a → (∃ state < e.trace.size, a = e.traceFact state) ∨
    ∃! c, c ∈ e.constraints ∧ ∃ p, e.Owns c p ∧ a = e.constraintFact c p
  /-- Objects of the pool are current for a constraint below its size only. -/
  pooled : e.strategy = .shared → ∀ c ∈ e.constraints, ∀ o,
    ⟨"cur_state", [Shared.automatonObject c, o]⟩ ∈ s →
      ∃ state < c.automaton.size, o = Shared.pooled state

variable {strategy : Strategy} {options : Options} {trace : Automaton}
  {constraints : List Constraint} {e : Encoding} {traceId : Nat} {c : Constraint} {p : Position}
  {moves : List Move} {steps : List Step} {s : State}

theorem has_of_owns (owns : e.Owns c p) : c.Has p := by
  cases p with
  | some state => exact owns
  | none => exact Replicated.needsJoint_iff.mpr owns.2

/-- Legal moves lead constraints to positions of their own only. -/
theorem owns_of_mem_positions (valid : e.Accepted) (legal : e.rules.Legal moves)
    (member : c ∈ e.constraints) (here : p ∈ c.positions (signals moves)) : e.Owns c p := by
  have has := Constraint.has_of_mem_positions (valid.constraints c member) here
  cases p with
  | some state => exact has
  | none =>
    refine ⟨?_, Replicated.needsJoint_iff.mp has⟩
    cases strategy : e.strategy with
    | replicated => rfl
    | shared =>
      -- The rules of the shared encoding have no join, which alone leads to the joint position.
      have alone := legal.join_not_mem (by simp [rules, strategy])
      rw [Constraint.positions_of_alone _ (.inr (by rwa [join_mem_signals]))] at here
      simp at here

/-- Every constraint is somewhere, and where it belongs. -/
theorem exists_owned_position (valid : e.Accepted) (legal : e.rules.Legal moves)
    (member : c ∈ e.constraints) : ∃ p, e.Owns c p ∧ p ∈ c.positions (signals moves) := by
  obtain ⟨p, here⟩ := List.exists_mem_of_ne_nil _ (c.positions_ne_nil (signals moves))
  exact ⟨p, owns_of_mem_positions valid legal member here, here⟩

theorem faithful_of_ok (made : Encoding.of strategy options trace constraints = .ok e) :
    e.Faithful traceId := by
  obtain ⟨same, _⟩ := inputs_of_ok made
  cases strategy with
  | replicated => exact Replicated.faithful same (accepted made)
  | shared => exact Shared.faithful same (accepted made)

namespace Faithful

theorem current_trace (f : e.Faithful traceId) {m : Standing} (shown : e.Shows traceId m s) :
    ∃! o, o ∈ (e.task traceId).members (some traceStateType) ∧
      ⟨e.vocabulary.traceCurrent, [o]⟩ ∈ s := by
  refine ⟨e.trace.traceObject m.trace, ⟨f.traceStates.mpr ⟨_, shown.within, rfl⟩, ?_⟩, ?_⟩
  · exact (shown.traceFact_mem f.toNamed f.valid).mpr rfl
  · rintro o ⟨listed, current⟩
    obtain ⟨state, _, rfl⟩ := f.traceStates.mp listed
    rw [(shown.traceFact_mem f.toNamed f.valid).mp current]

/-- The state of the shared pool that stands with a constraint in a fact is one of its states. -/
theorem pooled_of_current (f : e.Faithful traceId) (shared : e.strategy = .shared)
    (legal : e.rules.Legal moves) (shown : e.Shows traceId (e.rules.after moves) s)
    (member : c ∈ e.constraints) {o : String}
    (current : ⟨"cur_state", [Shared.automatonObject c, o]⟩ ∈ s) :
    ∃ state < c.automaton.size, o = Shared.pooled state := by
  rcases (shown.current _ (.inl rfl)).mp current with same | ⟨d, other, q, here, same⟩
  · simp [traceFact, Shared.vocabulary_eq shared, Shared.vocabulary] at same
  · have owns := owns_of_mem_positions f.valid legal other here
    cases q with
    | none => simp [Owns, shared] at owns
    | some state =>
      simp only [Shared.constraintFact_some shared, Atom.mk.injEq, List.cons.injEq, and_true,
        true_and] at same
      obtain ⟨automata, rfl⟩ := same
      obtain rfl := Shared.automatonObject_inj shared f.valid member other automata
      exact ⟨state, owns, rfl⟩

theorem owned_current_iff (f : e.Faithful traceId)
    (shown : e.Shows traceId (e.rules.after moves) s) (member : c ∈ e.constraints)
    (owns : e.Owns c p) : e.constraintFact c p ∈ s ↔ p ∈ c.positions (signals moves) :=
  shown.constraintFact_mem f.toNamed f.valid member (has_of_owns owns)

theorem currentStates (f : e.Faithful traceId) (legal : e.rules.Legal moves)
    (shown : e.Shows traceId (e.rules.after moves) s) : e.CurrentStates traceId s where
  trace := f.current_trace shown
  constraint c member := by
    obtain ⟨p, owns, here⟩ := exists_owned_position f.valid legal member
    exact ⟨p, owns, (f.owned_current_iff shown member owns).mpr here⟩
  deterministic c member deterministic := by
    obtain ⟨p, owns, here⟩ := exists_owned_position f.valid legal member
    refine ⟨p, ⟨owns, (f.owned_current_iff shown member owns).mpr here⟩, ?_⟩
    rintro q ⟨owns', current⟩
    have there := (f.owned_current_iff shown member owns').mp current
    exact Constraint.positions_unique deterministic _ q there p here
  owned a holds current := by
    rcases (shown.current a current).mp holds with rfl | ⟨c, member, p, here, rfl⟩
    · exact .inl ⟨_, shown.within, rfl⟩
    · have owns := owns_of_mem_positions f.valid legal member here
      refine .inr ⟨c, ⟨member, p, owns, rfl⟩, ?_⟩
      rintro d ⟨other, q, owns', same⟩
      exact (f.constraint other member (has_of_owns owns') (has_of_owns owns) same.symm).1
  pooled shared c member o current := f.pooled_of_current shared legal shown member current

end Faithful

/-- However a planning state is reached, its current states are as they should be. -/
theorem currentStates_of_run? (made : Encoding.of strategy options trace constraints = .ok e)
    (ran : (e.task traceId).run? (e.task traceId).init steps = some s) :
    e.CurrentStates traceId s := by
  have f : e.Faithful traceId := faithful_of_ok made
  obtain ⟨moves, rfl, legal, shown⟩ := f.legal_of_run? ran
  exact f.currentStates legal shown

/-- The task after a join and one more activity. -/
def joinedEnd? : Option State :=
  let task := (Sample.encoding .replicated ⟨.unconstrained, .free, false⟩ [Sample.absence]).task 0
  task.run? task.init
    [⟨"sync", ["t0", "b", "t1"]⟩, ⟨"goto-goal", ["t1", "dummy"]⟩, ⟨"add", ["a"]⟩]

theorem currentStates_sample : ∃ s, joinedEnd? = some s ∧
    (Sample.encoding .replicated ⟨.unconstrained, .free, false⟩ [Sample.absence]).CurrentStates
      0 s := by
  have reached : joinedEnd?.isSome = true := by decide +kernel
  obtain ⟨s, ran⟩ := Option.isSome_iff_exists.mp reached
  exact ⟨s, ran, currentStates_of_run? (Sample.made _ _) ran⟩

end AlignPlan.Encoding
