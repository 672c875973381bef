import AlignPlan.Proofs.Encoding.Simulation
import Mathlib.Order.MinMax

/-! The shared encoding makes the moves of an alignment, and its goal is that the trace is done
and no constraint is in a state that does not accept. -/
namespace AlignPlan.Encoding.Shared

open Planning

variable {e : Encoding} {traceId : Nat} {m : Standing} {s : State}

theorem lt_poolSize {constraints : List Constraint} {state : Nat} :
    state < poolSize constraints ↔ ∃ c ∈ constraints, state < c.automaton.size := by
  have below (sizes : List Nat) (start : Nat) :
      state < sizes.foldl max start ↔ state < start ∨ ∃ n ∈ sizes, state < n := by
    induction sizes generalizing start with
    | nil => simp
    | cons n ns ih => simp [ih, or_assoc]
  simp [poolSize, below]

theorem pooled_inj {j k : Nat} : pooled j = pooled k ↔ j = k := by
  refine ⟨fun same => ?_, fun same => same ▸ rfl⟩
  apply Decimal.render_injective
  simpa [pooled, ObjectName.render, String.append_right_inj] using same

section

variable (shared : e.strategy = .shared)

include shared

theorem vocabulary_eq : e.vocabulary = vocabulary := by simp [Encoding.vocabulary, shared]

theorem domain_eq : (e.task traceId).domain = domain e.options := by
  simp [task, Encoding.domain, Strategy.domain, shared]

theorem registrations_eq : e.strategy.registrations e.trace e.constraints =
    registrations e.trace e.constraints := by simp [Strategy.registrations, shared]

theorem init_eq : (e.task traceId).problem.init = init e.trace e.constraints := by
  simp [task, problem, Encoding.init, shared]

theorem goal_eq : (e.task traceId).problem.goal = goal e.trace := by
  simp [task, problem, Encoding.goal, shared]

theorem constraintFact_some (c : Constraint) (state : Nat) :
    e.constraintFact c (some state) = ⟨"cur_state", [automatonObject c, pooled state]⟩ := by
  simp [constraintFact, place, shared]

theorem name_of_action? {name : String} {action : Action}
    (found : (e.task traceId).domain.action? name = some action) :
    name = "sync" ∨ name = "add" ∨ name = "del" := by
  rw [domain_eq shared] at found
  obtain ⟨member, rfl⟩ := Domain.mem_of_action? found
  simp only [domain, List.mem_cons, List.not_mem_nil, or_false] at member
  rcases member with rfl | rfl | rfl <;> simp [Vocabulary.sync, Vocabulary.add, Vocabulary.del]

variable (valid : e.Accepted)

include valid

theorem automatonObject_inj {c d : Constraint} (hc : c ∈ e.constraints) (hd : d ∈ e.constraints)
    (same : automatonObject c = automatonObject d) : c = d := by
  have distinct : (e.constraints.map automatonObject).Nodup := by
    have all := valid.distinct
    simp only [names, registrations_eq shared, registrations, List.map_append,
      List.nodup_append, List.map_map] at all
    exact all.1.1.1
  exact List.inj_on_of_nodup_map distinct hc hd same

theorem named : e.Named where
  trace := valid.traceObject_inj
  constraint := by
    intro c d p q hc hd _ _ same
    cases p <;> cases q <;>
      simp only [constraintFact, place, shared, Atom.mk.injEq, List.cons.injEq, pooled_inj,
        true_and, and_true, reduceCtorEq, and_false] at same
    · exact ⟨automatonObject_inj shared valid hc hd same, rfl⟩
    · obtain ⟨automata, rfl⟩ := same
      exact ⟨automatonObject_inj shared valid hc hd automata, rfl⟩
  apart := by
    intro k c p _ _ same
    simp [traceFact, vocabulary_eq shared, vocabulary, constraintFact] at same

/-- The types that are in use, with their objects. -/
theorem mem_members {type o : String} (leaf : type ∉ ["object", "state"]) :
    o ∈ (e.task traceId).members (some type) ↔
      (type = automatonType ∧ ∃ c ∈ e.constraints, o = automatonObject c) ∨
      (type = traceStateType ∧ ∃ k < e.trace.size, o = e.trace.traceObject k) ∨
      (type = automatonStateType ∧ ∃ state < poolSize e.constraints, o = pooled state) ∨
      (type = activityType ∧ o ∈ activities e.trace e.constraints) := by
  simp only [List.mem_cons, List.not_mem_nil, or_false, not_or] at leaf
  have below : ∀ g ∈ (e.task traceId).domain.types, g.type ≠ some type := by
    rw [domain_eq shared]
    simp [domain, TypedList.of, TypedList.untyped, stateType, eq_comm, leaf]
  rw [valid.mem_members leaf.1 below, registrations_eq shared]
  simp only [registrations, traceRegistrations, activityRegistrations, List.mem_append,
    List.mem_map, List.mem_range, Automaton.mem_states]
  constructor
  · rintro ⟨_, ((⟨c, member, rfl⟩ | ⟨_, ⟨k, bound, rfl⟩, rfl⟩) | ⟨state, bound, rfl⟩) |
      ⟨_, listed, rfl⟩, rfl, rfl⟩
    · exact .inl ⟨rfl, c, member, rfl⟩
    · exact .inr (.inl ⟨rfl, k, bound, rfl⟩)
    · exact .inr (.inr (.inl ⟨rfl, state, bound, rfl⟩))
    · exact .inr (.inr (.inr ⟨rfl, listed⟩))
  · rintro (⟨rfl, c, member, rfl⟩ | ⟨rfl, k, bound, rfl⟩ | ⟨rfl, state, bound, rfl⟩ | ⟨rfl, listed⟩)
    · exact ⟨_, .inl (.inl (.inl ⟨c, member, rfl⟩)), rfl, rfl⟩
    · exact ⟨_, .inl (.inl (.inr ⟨_, ⟨k, bound, rfl⟩, rfl⟩)), rfl, rfl⟩
    · exact ⟨_, .inl (.inr ⟨state, bound, rfl⟩), rfl, rfl⟩
    · exact ⟨_, .inr ⟨_, listed, rfl⟩, rfl, rfl⟩

theorem mem_automata {o : String} : o ∈ (e.task traceId).members (some automatonType) ↔
    ∃ c ∈ e.constraints, o = automatonObject c := by
  rw [mem_members shared valid (by decide)]
  simp [automatonType, traceStateType, automatonStateType, activityType]

theorem mem_traceStates {o : String} : o ∈ (e.task traceId).members (some traceStateType) ↔
    ∃ k < e.trace.size, o = e.trace.traceObject k := by
  rw [mem_members shared valid (by decide)]
  simp [automatonType, traceStateType, automatonStateType, activityType]

theorem mem_pool {o : String} : o ∈ (e.task traceId).members (some automatonStateType) ↔
    ∃ state < poolSize e.constraints, o = pooled state := by
  rw [mem_members shared valid (by decide)]
  simp [automatonType, traceStateType, automatonStateType, activityType]

theorem mem_activityType {o : String} : o ∈ (e.task traceId).members (some activityType) ↔
    o ∈ activities e.trace e.constraints := by
  rw [mem_members shared valid (by decide)]
  simp [automatonType, traceStateType, automatonStateType, activityType]

omit valid in
theorem transition_mem_init {arguments : List String} :
    ⟨"automaton_trans", arguments⟩ ∈ (e.task traceId).init ↔ ∃ c ∈ e.constraints,
      ∃ t ∈ c.automaton.transitions,
        arguments = [automatonObject c, pooled t.source, t.symbol, pooled t.target] := by
  rw [Task.mem_init, init_eq shared]
  simp [init, traceFacts, constraintFacts, eq_comm]

omit valid in
theorem final_mem_init {arguments : List String} :
    ⟨"final_state", arguments⟩ ∈ (e.task traceId).init ↔ ∃ c ∈ e.constraints,
      ∃ state ∈ c.automaton.accepting, arguments = [automatonObject c, pooled state] := by
  rw [Task.mem_init, init_eq shared]
  simp [init, traceFacts, constraintFacts, eq_comm]

omit valid in
theorem traceTransition_mem_init {arguments : List String} :
    ⟨"trace_trans", arguments⟩ ∈ (e.task traceId).init ↔
      ∃ t ∈ e.trace.transitions, arguments = e.trace.transitionObjects t := by
  rw [Task.mem_init, init_eq shared]
  simp [init, traceFacts, constraintFacts, Automaton.transitionObjects, eq_comm]

theorem shows_init : e.Shows traceId e.rules.start (e.task traceId).init where
  within := valid.trace.start_lt
  current := by
    rintro ⟨predicate, arguments⟩ (rfl | rfl) <;> rw [Task.mem_init, init_eq shared] <;>
      simp [init, traceFacts, constraintFacts, traceFact, vocabulary_eq shared, vocabulary,
        Rules.start, rules, constraintFact, place, shared]
  fixed _ _ := Iff.rfl
  cost := by
    simp [Task.init, init_eq shared, init, Rules.start]

theorem current_mem (h : e.Shows traceId m s) {c : Constraint} (member : c ∈ e.constraints)
    {state : Nat} : ⟨"cur_state", [automatonObject c, pooled state]⟩ ∈ s ↔
      some state ∈ c.positions m.signals := by
  rw [← constraintFact_some shared, h.current _ (isCurrent_constraintFact _ _)]
  constructor
  · rintro (same | ⟨d, other, q, here, same⟩)
    · simp [traceFact, vocabulary_eq shared, vocabulary, constraintFact] at same
    · cases q <;> simp only [constraintFact, place, shared, Atom.mk.injEq, List.cons.injEq,
        pooled_inj, true_and, and_true, reduceCtorEq, and_false] at same
      obtain ⟨automata, rfl⟩ := same
      obtain rfl := automatonObject_inj shared valid member other automata
      exact here
  · intro here
    exact .inr ⟨c, member, _, here, rfl⟩

theorem broadcasts {σ : Assignment} {symbol : String} (h : e.Shows traceId m s)
    (names : σ "?e" = symbol) : e.Broadcasts m.signals (.activity symbol)
      ((e.task traceId).changes s e.vocabulary.advanceConstraints σ) := by
  subst names
  apply Broadcasts.of_mem
  intro change
  have quantified : typedNames [.of ["?a"] automatonType, .of ["?s1", "?s2"] automatonStateType] =
    [("?a", some automatonType), ("?s1", some automatonStateType),
      ("?s2", some automatonStateType)] := rfl
  have listed {arguments : List String} :
      ⟨"automaton_trans", arguments⟩ ∈ s ↔ ∃ c ∈ e.constraints, ∃ t ∈ c.automaton.transitions,
        arguments = [automatonObject c, pooled t.source, t.symbol, pooled t.target] := by
    rw [h.fixed _ (by simp [IsCurrent]), transition_mem_init shared]
  rw [vocabulary_eq shared, vocabulary, changes_broadcast, quantified]
  simp only [Task.mem_bindings_cons, Task.mem_bindings_nil]
  constructor
  · rintro ⟨_, ⟨a, _, x, _, y, _, rfl⟩, current, transition, changed⟩
    obtain ⟨c, member, t, taken, same⟩ := listed.mp transition
    simp only [List.map_cons, Assignment.bind, String.reduceEq, ↓reduceIte, List.map_nil,
      List.cons.injEq, and_true] at same current changed
    obtain ⟨rfl, rfl, symbol, rfl⟩ := same
    rw [current_mem shared valid h member] at current
    refine ⟨c, member, some t.source, current, some t.target, ?_, ?_⟩
    · exact Constraint.mem_successors_activity.mpr ⟨t, taken, symbol.symm, rfl, rfl⟩
    · simpa [constraintFact_some shared] using changed
  · rintro ⟨c, member, p, here, q, next, changed⟩
    obtain ⟨t, taken, symbol, rfl, rfl⟩ := Constraint.mem_successors_activity.mp next
    obtain ⟨source, target, _⟩ := (valid.constraints c member).transitions t taken
    refine ⟨_, ⟨_, (mem_automata shared valid).mpr ⟨c, member, rfl⟩,
      _, (mem_pool shared valid).mpr ⟨_, lt_poolSize.mpr ⟨c, member, source⟩, rfl⟩,
      _, (mem_pool shared valid).mpr ⟨_, lt_poolSize.mpr ⟨c, member, target⟩, rfl⟩, rfl⟩,
      ?_, listed.mpr ⟨c, member, t, taken, by simp [Assignment.bind, symbol]⟩, ?_⟩
    · simpa [Assignment.bind] using (current_mem shared valid h member).mpr here
    · simpa [constraintFact_some shared, Assignment.bind] using changed

/-- The shared encoding has no step into a joint state. -/
theorem faithful : e.Faithful traceId where
  toNamed := named shared valid
  valid := valid
  sync := by rw [domain_eq shared, vocabulary_eq shared]; rfl
  add := by rw [domain_eq shared, vocabulary_eq shared]; rfl
  del := by rw [domain_eq shared, vocabulary_eq shared]; rfl
  actions found := (name_of_action? shared found).imp_right (Or.imp_right .inl)
  traceStates := mem_traceStates shared valid
  activities := by rw [vocabulary_eq shared]; exact mem_activityType shared valid
  transitions := by rw [vocabulary_eq shared]; exact traceTransition_mem_init shared
  initial := shows_init shared valid
  advance := broadcasts shared valid
  joined _ taken := by
    obtain ⟨_, _, found, _⟩ := Task.next?_eq_some.mp taken
    have names := name_of_action? shared found
    simp at names
  joins := by
    intro m s _ allowed
    simp [Rules.Allows, rules, shared] at allowed

theorem final_mem (h : e.Shows traceId m s) {c : Constraint} (member : c ∈ e.constraints)
    {state : Nat} : ⟨"final_state", [automatonObject c, pooled state]⟩ ∈ s ↔
      state ∈ c.automaton.accepting := by
  rw [h.fixed _ (by simp [IsCurrent]), final_mem_init shared]
  constructor
  · rintro ⟨d, other, accepted, accepting, same⟩
    simp only [List.cons.injEq, pooled_inj, and_true] at same
    obtain ⟨automata, rfl⟩ := same
    obtain rfl := automatonObject_inj shared valid member other automata
    exact accepting
  · intro accepting
    exact ⟨c, member, state, accepting, rfl⟩

theorem traceCurrent_mem (h : e.Shows traceId m s) {k : Nat} :
    ⟨"cur_state_trace", [e.trace.traceObject k]⟩ ∈ s ↔ k = m.trace := by
  have current := h.traceFact_mem (named shared valid) valid (k := k)
  rwa [traceFact, vocabulary_eq shared] at current

/-- The implication of the goal, over all pairs of a constraint and a state of the pool. -/
theorem accepted_iff (h : e.Shows traceId m s) (alone : Signal.join ∉ m.signals) :
    (∀ τ ∈ (e.task traceId).bindings (typedNames automatonInState) id,
      ⟨"cur_state", [τ "?a", τ "?s"]⟩ ∈ s → ⟨"final_state", [τ "?a", τ "?s"]⟩ ∈ s) ↔
    ∀ c ∈ e.constraints, ∀ state ∈ c.automaton.run (heard m.signals),
      state ∈ c.automaton.accepting := by
  have quantified : typedNames automatonInState =
    [("?a", some automatonType), ("?s", some automatonStateType)] := rfl
  rw [quantified]
  constructor
  · intro all c member state reached
    have here : some state ∈ c.positions m.signals := by
      simp [Constraint.positions_of_alone _ (.inr alone), reached]
    have within := Constraint.has_of_mem_positions (valid.constraints c member) here
    have bound := all ((Assignment.bind id "?a" (automatonObject c)).bind "?s" (pooled state))
    simp only [Task.mem_bindings_cons, Task.mem_bindings_nil] at bound
    have final := bound ⟨_, (mem_automata shared valid).mpr ⟨c, member, rfl⟩, _,
      (mem_pool shared valid).mpr ⟨state, lt_poolSize.mpr ⟨c, member, within⟩, rfl⟩, rfl⟩
    rw [← final_mem shared valid h member]
    exact final ((current_mem shared valid h member).mpr here)
  · intro all τ bound
    simp only [Task.mem_bindings_cons, Task.mem_bindings_nil] at bound
    obtain ⟨_, automaton, _, pool, rfl⟩ := bound
    obtain ⟨c, member, rfl⟩ := (mem_automata shared valid).mp automaton
    obtain ⟨state, _, rfl⟩ := (mem_pool shared valid).mp pool
    intro current
    apply (final_mem shared valid h member).mpr
    apply all c member
    have here := (current_mem shared valid h member).mp current
    simpa [Constraint.positions_of_alone _ (.inr alone)] using here

/-- The goal asks every constraint to be in accepting states only. -/
theorem atGoal_iff (h : e.Shows traceId m s) (alone : Signal.join ∉ m.signals) :
    (e.task traceId).atGoal s = true ↔ m.trace = e.trace.firstAccepting ∧ ∀ c ∈ e.constraints,
      ∀ state ∈ c.automaton.run (heard m.signals), state ∈ c.automaton.accepting := by
  have done := (traceCurrent_mem shared valid h (k := e.trace.firstAccepting)).trans eq_comm
  rw [← done, ← accepted_iff shared valid h alone]
  simp [Task.atGoal, goal_eq shared, goal, Task.allHold, Task.holds, State.mem_def, imp_iff_not_or]

theorem solves_iff {plan : List Step} {k : Nat} : (e.task traceId).Solves plan k ↔
    ∃ moves : List Move, plan = moves.map (Move.step e.trace) ∧ e.rules.Legal moves ∧
      ((e.rules.after moves).trace = e.trace.firstAccepting ∧ ∀ c ∈ e.constraints,
        ∀ state ∈ c.automaton.run (activitiesOf moves), state ∈ c.automaton.accepting) ∧
      (e.rules.after moves).cost = k := by
  refine (faithful shared valid).solves_iff fun {moves s} legal shown => ?_
  have alone := legal.join_not_mem (by simp [rules, shared])
  rw [atGoal_iff shared valid shown (by simpa [Rules.after, join_mem_signals] using alone)]
  simp only [Rules.after, heard_signals]

end

end AlignPlan.Encoding.Shared
