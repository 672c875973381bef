import AlignPlan.Proofs.Encoding.Facts

/-! Planning steps and moves of an alignment are the same thing. What depends on the strategy is
collected in `Faithful`; the rest of the argument is made once for both. -/
namespace AlignPlan.Encoding

open Planning

/-- What an encoding owes to the moves of an alignment. -/
structure Faithful (e : Encoding) (traceId : Nat) : Prop extends Named e where
  valid : e.Accepted
  sync : (e.task traceId).domain.action? "sync" = some e.vocabulary.sync
  add : (e.task traceId).domain.action? "add" = some (e.vocabulary.add e.options.addPolicy)
  del : (e.task traceId).domain.action? "del" = some e.vocabulary.del
  actions : ∀ {name action}, (e.task traceId).domain.action? name = some action →
    name = "sync" ∨ name = "add" ∨ name = "del" ∨ name = "goto-goal"
  traceStates : ∀ {o}, o ∈ (e.task traceId).members (some traceStateType) ↔
    ∃ k < e.trace.size, o = e.trace.traceObject k
  activities : ∀ {o}, o ∈ (e.task traceId).members (some e.vocabulary.activityType) ↔
    o ∈ activities e.trace e.constraints
  transitions : ∀ {arguments}, ⟨e.vocabulary.traceTransition, arguments⟩ ∈ (e.task traceId).init ↔
    ∃ t ∈ e.trace.transitions, arguments = e.trace.transitionObjects t
  initial : e.Shows traceId e.rules.start (e.task traceId).init
  advance : ∀ {m s σ symbol}, e.Shows traceId m s → σ "?e" = symbol → e.Broadcasts m.signals
    (.activity symbol) ((e.task traceId).changes s e.vocabulary.advanceConstraints σ)
  joined : ∀ {m s s' arguments}, e.Shows traceId m s →
    (e.task traceId).next? s ⟨"goto-goal", arguments⟩ = some s' →
    ⟨"goto-goal", arguments⟩ = Move.join.step e.trace ∧ e.rules.Allows m.trace .join ∧
      e.Shows traceId (e.rules.advance m .join) s'
  joins : ∀ {m s}, e.Shows traceId m s → e.rules.Allows m.trace .join →
    ∃ s', (e.task traceId).next? s (Move.join.step e.trace) = some s'

variable {e : Encoding} {traceId : Nat} {m : Standing} {s s' : State}

theorem not_isCurrent_transition (arguments : List String) :
    ¬IsCurrent ⟨e.vocabulary.traceTransition, arguments⟩ := by
  unfold IsCurrent vocabulary
  cases e.strategy <;> simp [Replicated.vocabulary, Shared.vocabulary]

namespace Faithful

theorem transitionObjects_inj (f : e.Faithful traceId) {t u : Transition}
    (member : u ∈ e.trace.transitions)
    (same : e.trace.transitionObjects t = e.trace.transitionObjects u) : t = u := by
  obtain ⟨source, target, _⟩ := f.valid.trace.transitions u member
  simp only [Automaton.transitionObjects, List.cons.injEq, and_true] at same
  obtain ⟨sources, symbols, targets⟩ := same
  have sources := f.trace source sources
  have targets := f.trace target targets
  cases t
  cases u
  simp_all

/-- Different moves are different steps, if one of them may be made. -/
theorem step_inj (f : e.Faithful traceId) {move move' : Move} {state : Nat}
    (allowed : e.rules.Allows state move') (same : move.step e.trace = move'.step e.trace) :
    move = move' := by
  cases move' with
  | sync t =>
    cases move <;> simp [Move.step] at same
    exact congrArg Move.sync (f.transitionObjects_inj allowed.1 same)
  | add symbol =>
    cases move <;> simp [Move.step, Automaton.transitionObjects] at same
    exact congrArg Move.add same
  | addAlong t =>
    cases move <;> simp [Move.step] at same
    · simp [Automaton.transitionObjects] at same
    · exact congrArg Move.addAlong (f.transitionObjects_inj allowed.2.1 same)
  | del t =>
    cases move <;> simp [Move.step] at same
    exact congrArg Move.del (f.transitionObjects_inj allowed.1 same)
  | join => cases move <;> simp [Move.step] at same ⊢

/-- The assignment of a step along a transition. -/
def alongTransition (e : Encoding) (t : Transition) : Assignment :=
  Vocabulary.along (e.trace.traceObject t.source) t.symbol (e.trace.traceObject t.target)

/-- Steps along a transition need a transition of the trace out of its current state. -/
theorem next?_along (f : e.Faithful traceId) (h : e.Shows traceId m s) {action : Action}
    {step : Step} (known : (e.task traceId).domain.action? step.action = some action)
    (parameters : action.parameters = e.vocabulary.traceStep)
    (precondition : action.precondition = e.vocabulary.onTraceStep) :
    (e.task traceId).next? s step = some s' ↔
      ∃ t ∈ e.trace.transitions, t.source = m.trace ∧
        step.arguments = e.trace.transitionObjects t ∧
        s' = s.apply ((e.task traceId).changes s action.effect (alongTransition e t)) := by
  rw [Vocabulary.next?_along known parameters precondition]
  constructor
  · rintro ⟨x, _, y, arguments, source, _, _, current, listed, rfl⟩
    obtain ⟨i, bound, rfl⟩ := f.traceStates.mp source
    rw [h.fixed _ (not_isCurrent_transition _), f.transitions] at listed
    obtain ⟨t, member, same⟩ := listed
    have here : i = m.trace := (h.traceFact_mem f.toNamed f.valid).mp current
    have start : t.source = i := f.trace bound (List.cons.inj same).1.symm
    simp only [Automaton.transitionObjects, List.cons.injEq, and_true] at same
    obtain ⟨_, rfl, rfl⟩ := same
    exact ⟨t, member, start.trans here, by rw [arguments, ← start]; rfl,
      by rw [alongTransition, start]⟩
  · rintro ⟨t, member, here, arguments, rfl⟩
    obtain ⟨source, target, symbol⟩ := f.valid.trace.transitions t member
    refine ⟨_, t.symbol, _, arguments, f.traceStates.mpr ⟨_, source, rfl⟩, ?_,
      f.traceStates.mpr ⟨_, target, rfl⟩, (h.traceFact_mem f.toNamed f.valid).mpr here, ?_, rfl⟩
    · exact f.activities.mpr (mem_activities.mpr (.inl symbol))
    · rw [h.fixed _ (not_isCurrent_transition _), f.transitions]
      exact ⟨t, member, rfl⟩

/-- Every planning step that can be taken is a move that may be made, and leads to a state that
shows where the move leads. -/
theorem move_of_next? (f : e.Faithful traceId) (h : e.Shows traceId m s) {step : Step}
    (taken : (e.task traceId).next? s step = some s') :
    ∃ move : Move, step = move.step e.trace ∧ e.rules.Allows m.trace move ∧
      e.Shows traceId (e.rules.advance m move) s' := by
  obtain ⟨name, arguments⟩ := step
  obtain ⟨_, _, found, _⟩ := Task.next?_eq_some.mp taken
  rcases f.actions found with rfl | rfl | rfl | rfl
  · obtain ⟨t, member, here, rfl, rfl⟩ := (f.next?_along h f.sync rfl rfl).mp taken
    have target := (f.valid.trace.transitions t member).2.1
    refine ⟨.sync t, rfl, ⟨member, here⟩, ?_⟩
    rw [alongTransition, Vocabulary.changes_sync, here]
    exact (h.moveTrace f.toNamed f.valid target).broadcast_after f.toNamed f.valid rfl
      (fun a added => ⟨t.target, by simpa [traceFact] using added⟩) (f.advance h rfl)
  · have charged : e.Shows traceId { m with cost := m.cost + 1 }
        (s.apply [.raise totalCost 1]) := h.charge 1
    have known := f.add
    cases policy : e.options.addPolicy with
    | unconstrained =>
      rw [policy] at known
      obtain ⟨symbol, listed, rfl, rfl⟩ := (Vocabulary.next?_add known).mp taken
      refine ⟨.add symbol, rfl, ⟨policy, f.activities.mp listed⟩, ?_⟩
      rw [Vocabulary.changes_add]
      exact charged.broadcast_after f.toNamed f.valid rfl (by simp) (f.advance h rfl)
    | traceGuarded =>
      rw [policy] at known
      obtain ⟨t, member, here, rfl, rfl⟩ := (f.next?_along h known rfl rfl).mp taken
      refine ⟨.addAlong t, rfl, ⟨policy, member, here⟩, ?_⟩
      rw [alongTransition, Vocabulary.changes_add]
      exact charged.broadcast_after f.toNamed f.valid rfl (by simp) (f.advance h rfl)
  · obtain ⟨t, member, here, rfl, rfl⟩ := (f.next?_along h f.del rfl rfl).mp taken
    have target := (f.valid.trace.transitions t member).2.1
    refine ⟨.del t, rfl, ⟨member, here⟩, ?_⟩
    rw [alongTransition, Vocabulary.changes_del, here, State.apply_append _ _ _ (by simp)]
    have moved := (h.charge 1).moveTrace f.toNamed f.valid target
    rwa [← List.append_nil m.signals] at moved
  · exact ⟨.join, f.joined h taken⟩

/-- Every move that may be made is a planning step that can be taken. -/
theorem next?_of_allowed (f : e.Faithful traceId) (h : e.Shows traceId m s) {move : Move}
    (allowed : e.rules.Allows m.trace move) :
    ∃ s', (e.task traceId).next? s (move.step e.trace) = some s' ∧
      e.Shows traceId (e.rules.advance m move) s' := by
  have takes : ∃ s', (e.task traceId).next? s (move.step e.trace) = some s' := by
    cases move with
    | sync t => exact ⟨_, (f.next?_along h f.sync rfl rfl).mpr ⟨t, allowed.1, allowed.2, rfl, rfl⟩⟩
    | add symbol =>
      have known := f.add
      have policy : e.options.addPolicy = .unconstrained := allowed.1
      rw [policy] at known
      exact ⟨_, (Vocabulary.next?_add known).mpr ⟨symbol, f.activities.mpr allowed.2, rfl, rfl⟩⟩
    | addAlong t =>
      have known := f.add
      have policy : e.options.addPolicy = .traceGuarded := allowed.1
      rw [policy] at known
      exact ⟨_, (f.next?_along h known rfl rfl).mpr ⟨t, allowed.2.1, allowed.2.2, rfl, rfl⟩⟩
    | del t => exact ⟨_, (f.next?_along h f.del rfl rfl).mpr ⟨t, allowed.1, allowed.2, rfl, rfl⟩⟩
    | join => exact f.joins h allowed
  obtain ⟨s', taken⟩ := takes
  -- The step may be read as another move, so the two have to be shown equal.
  obtain ⟨move', same, allowed', shown⟩ := f.move_of_next? h taken
  obtain rfl := f.step_inj allowed' same
  exact ⟨s', taken, shown⟩

theorem transition_of_assigned (f : e.Faithful traceId) {arguments : List String} {σ : Assignment}
    (assigned : (e.task traceId).assign? (typedNames e.vocabulary.traceStep) arguments = some σ) :
    ∃ t : Transition, arguments = e.trace.transitionObjects t := by
  obtain ⟨_, symbol, _, rfl, source, _, target, _⟩ := Vocabulary.assign?_traceStep.mp assigned
  obtain ⟨i, _, rfl⟩ := f.traceStates.mp source
  obtain ⟨j, _, rfl⟩ := f.traceStates.mp target
  exact ⟨⟨i, symbol, j⟩, rfl⟩

/-- Steps with objects of the right types are moves, whether or not they can be taken. -/
theorem move_of_ground (f : e.Faithful traceId) {step : Step}
    (ground : (e.task traceId).Ground step) :
    (∃ move : Move, step = move.step e.trace) ∨ step.action = "goto-goal" := by
  obtain ⟨name, arguments⟩ := step
  obtain ⟨action, σ, found, assigned⟩ := ground
  rcases f.actions found with rfl | rfl | rfl | rfl
  · obtain rfl := Option.some.inj (f.sync.symm.trans found)
    obtain ⟨t, rfl⟩ := f.transition_of_assigned assigned
    exact .inl ⟨.sync t, rfl⟩
  · obtain rfl := Option.some.inj (f.add.symm.trans found)
    cases policy : e.options.addPolicy with
    | unconstrained =>
      rw [policy] at assigned
      obtain ⟨symbol, _, _, rfl, _, nothing, _⟩ := Task.assign?_cons.mp assigned
      obtain ⟨rfl, _⟩ := Task.assign?_nil.mp nothing
      exact .inl ⟨.add symbol, rfl⟩
    | traceGuarded =>
      rw [policy] at assigned
      obtain ⟨t, rfl⟩ := f.transition_of_assigned assigned
      exact .inl ⟨.addAlong t, rfl⟩
  · obtain rfl := Option.some.inj (f.del.symm.trans found)
    obtain ⟨t, rfl⟩ := f.transition_of_assigned assigned
    exact .inl ⟨.del t, rfl⟩
  · exact .inr rfl

/-- The policy says how many objects an insertion names. -/
theorem policy_of_ground_add (f : e.Faithful traceId) {symbol : String}
    (ground : (e.task traceId).Ground (Move.step e.trace (.add symbol))) :
    e.options.addPolicy = .unconstrained ∧ symbol ∈ e.rules.activities := by
  obtain ⟨action, σ, found, assigned⟩ := ground
  obtain rfl := Option.some.inj (f.add.symm.trans found)
  cases policy : e.options.addPolicy with
  | unconstrained =>
    rw [policy] at assigned
    obtain ⟨_, _, _, same, member, _⟩ := Task.assign?_cons.mp assigned
    obtain ⟨rfl, _⟩ := List.cons.inj same
    exact ⟨rfl, f.activities.mp member⟩
  | traceGuarded =>
    rw [policy] at assigned
    obtain ⟨_, _, _, same, _⟩ := Vocabulary.assign?_traceStep.mp assigned
    simp [Move.step] at same

theorem policy_of_ground_addAlong (f : e.Faithful traceId) {t : Transition}
    (ground : (e.task traceId).Ground (Move.step e.trace (.addAlong t))) :
    e.options.addPolicy = .traceGuarded := by
  obtain ⟨action, σ, found, assigned⟩ := ground
  obtain rfl := Option.some.inj (f.add.symm.trans found)
  cases policy : e.options.addPolicy with
  | unconstrained =>
    rw [policy] at assigned
    obtain ⟨_, _, _, same, _, nothing, _⟩ := Task.assign?_cons.mp assigned
    obtain ⟨rfl, _⟩ := Task.assign?_nil.mp nothing
    simp [Move.step, Automaton.transitionObjects] at same
  | traceGuarded => rfl

/-- Whole runs of moves are whole runs of planning steps. -/
theorem run?_of_legal (f : e.Faithful traceId) {moves : List Move} (legal : e.rules.Legal moves) :
    ∃ s, (e.task traceId).run? (e.task traceId).init (moves.map (Move.step e.trace)) = some s ∧
      e.Shows traceId (e.rules.after moves) s := by
  induction moves using List.reverseRecOn with
  | nil => exact ⟨_, rfl, f.initial⟩
  | append_singleton moves move ih =>
    obtain ⟨before, allowed⟩ := Rules.legal_concat.mp legal
    obtain ⟨s, reached, shown⟩ := ih before
    obtain ⟨s', taken, shown'⟩ := f.next?_of_allowed shown allowed
    rw [Rules.after_concat]
    refine ⟨s', ?_, shown'⟩
    rw [List.map_append, Task.run?_append, reached]
    simpa [Task.run?] using taken

theorem legal_of_run? (f : e.Faithful traceId) {steps : List Step}
    (ran : (e.task traceId).run? (e.task traceId).init steps = some s) :
    ∃ moves : List Move, steps = moves.map (Move.step e.trace) ∧ e.rules.Legal moves ∧
      e.Shows traceId (e.rules.after moves) s := by
  induction steps using List.reverseRecOn generalizing s with
  | nil =>
    obtain rfl := Option.some.inj ran
    exact ⟨[], rfl, by simp [Rules.Legal], f.initial⟩
  | append_singleton steps step ih =>
    rw [Task.run?_append, Option.bind_eq_some_iff] at ran
    obtain ⟨s', ran, taken⟩ := ran
    obtain ⟨moves, rfl, legal, shown⟩ := ih ran
    have taken : (e.task traceId).next? s' step = some s := by simpa [Task.run?] using taken
    obtain ⟨move, rfl, allowed, shown'⟩ := f.move_of_next? shown taken
    exact ⟨moves ++ [move], by simp, Rules.legal_concat.mpr ⟨legal, allowed⟩,
      by rwa [Rules.after_concat]⟩

/-- Steps are legal moves in one way only. -/
theorem eq_of_map_step (f : e.Faithful traceId) {moves moves' : List Move}
    (legal : e.rules.Legal moves')
    (same : moves.map (Move.step e.trace) = moves'.map (Move.step e.trace)) : moves = moves' := by
  induction moves' using List.reverseRecOn generalizing moves with
  | nil => simpa using same
  | append_singleton moves' move' ih =>
    obtain ⟨before, allowed⟩ := Rules.legal_concat.mp legal
    rw [List.map_append, List.map_singleton] at same
    obtain ⟨moves, last, rfl, front, back⟩ := List.map_eq_append_iff.mp same
    obtain ⟨move, rfl, step⟩ := List.map_eq_singleton_iff.mp back
    rw [ih before front, f.step_inj allowed step]

/-- What a plan achieves can be said of its moves, if the goal can. -/
theorem solves_iff (f : e.Faithful traceId) {goal : List Move → Prop}
    (atGoal : ∀ {moves s}, e.rules.Legal moves → e.Shows traceId (e.rules.after moves) s →
      ((e.task traceId).atGoal s = true ↔ goal moves)) {plan : List Step} {k : Nat} :
    (e.task traceId).Solves plan k ↔ ∃ moves : List Move, plan = moves.map (Move.step e.trace) ∧
      e.rules.Legal moves ∧ goal moves ∧ (e.rules.after moves).cost = k := by
  constructor
  · rintro ⟨s, ran, reached, paid⟩
    obtain ⟨moves, rfl, legal, shown⟩ := f.legal_of_run? ran
    exact ⟨moves, rfl, legal, (atGoal legal shown).mp reached, shown.cost.symm.trans paid⟩
  · rintro ⟨moves, rfl, legal, reached, paid⟩
    obtain ⟨s, ran, shown⟩ := f.run?_of_legal legal
    exact ⟨s, ran, (atGoal legal shown).mpr reached, shown.cost.trans paid⟩

end Faithful

end AlignPlan.Encoding
