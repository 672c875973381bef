import AlignPlan.Proofs.Encoding.Simulation
import Mathlib.Data.List.Pairwise

/-! The replicated encoding makes the moves of an alignment and a step into the joint states. Its
goal is that the trace is done and every constraint is at one target position, maybe among
others. -/
namespace AlignPlan.Encoding.Replicated

open Planning

variable {e : Encoding} {traceId : Nat} {m : Standing} {s s' : State} {c d : Constraint}
  {p q : Position}

/-- The object that stands for a position of a constraint. -/
def object (c : Constraint) : Position → String
  | some state => stateObject c state
  | none => jointObject c

/-- The names of the objects of a constraint. -/
def objects (c : Constraint) : List String :=
  (constraintRegistrations c).map fun r => r.name.render

theorem objects_eq : objects c =
    (c.automaton.states.map fun state => (ObjectName.automatonState c.id state).render) ++
      if needsJoint c = true then [jointObject c] else [] := by
  unfold objects constraintRegistrations
  split <;> simp [jointObject]

theorem mem_objects {o : String} : o ∈ objects c ↔ ∃ p, c.Has p ∧ o = object c p := by
  simp only [objects_eq, List.mem_append, List.mem_map, Automaton.mem_states]
  constructor
  · rintro (⟨_, ⟨k, bound, rfl⟩, rfl⟩ | joint)
    · exact ⟨some k, bound, rfl⟩
    · split at joint
      next several => exact ⟨none, several, List.mem_singleton.mp joint⟩
      next => simp at joint
  · rintro ⟨p, has, rfl⟩
    cases p with
    | some k => exact .inl ⟨_, ⟨k, has, rfl⟩, rfl⟩
    | none =>
      have several : needsJoint c = true := has
      exact .inr (by rw [if_pos several]; exact List.mem_singleton_self _)

theorem atom_not_mem_jointFacts {predicate : String} {arguments : List String}
    (other : predicate ≠ "dummy_trans") : Formula.atom predicate arguments ∉ jointFacts c := by
  unfold jointFacts
  split <;> simp [other.symm]

theorem mem_jointFacts {arguments : List String} (accepting : c.automaton.accepting ≠ []) :
    Formula.atom "dummy_trans" arguments ∈ jointFacts c ↔ needsJoint c = true ∧
      ∃ state ∈ c.automaton.accepting,
        arguments = [stateObject c state, dummyName, jointObject c] := by
  unfold jointFacts needsJoint
  match found : c.automaton.accepting with
  | [] => contradiction
  | [_] => simp
  | _ :: _ :: _ => simp [eq_comm]

theorem needsJoint_iff : needsJoint c = true ↔ 2 ≤ c.automaton.accepting.length := by
  simp [needsJoint, Nat.lt_iff_add_one_le]

/-- Where a constraint has to end. -/
def goalPosition (c : Constraint) : Position :=
  match c.automaton.accepting with
  | [single] => some single
  | _ => none

theorem goalPosition_of_several (several : needsJoint c = true) : goalPosition c = none := by
  unfold goalPosition
  split
  next single => simp [needsJoint, single] at several
  next => rfl

theorem goalPosition_of_single (nonempty : c.automaton.accepting ≠ [])
    (single : needsJoint c = false) :
    ∃ state, c.automaton.accepting = [state] ∧ goalPosition c = some state := by
  unfold goalPosition
  match found : c.automaton.accepting with
  | [] => contradiction
  | [state] => exact ⟨state, rfl, rfl⟩
  | _ :: _ :: _ => simp [needsJoint, found] at single

theorem has_goalPosition (valid : c.automaton.WellFormed .constraint) :
    c.Has (goalPosition c) := by
  cases several : needsJoint c with
  | true => rw [goalPosition_of_several several]; exact several
  | false =>
    obtain ⟨state, single, goal⟩ := goalPosition_of_single valid.someAccepting several
    rw [goal]
    exact valid.accepting state (by simp [single])

/-- A constraint with one accepting state is at its target if it accepts what it heard. -/
theorem goalPosition_mem_iff_of_single (valid : c.automaton.WellFormed .constraint)
    (single : needsJoint c = false) {told : List Signal} :
    goalPosition c ∈ c.positions told ↔ c.automaton.Accepts (heard told) := by
  obtain ⟨state, only, goal⟩ := goalPosition_of_single valid.someAccepting single
  rw [goal, Constraint.positions_of_alone _ (.inl single)]
  simp [Automaton.Accepts, only]

/-- A join takes a constraint with several accepting states to its joint state if one of them is
current. -/
theorem goalPosition_mem_of_join (several : needsJoint c = true) {told : List Signal} {state : Nat}
    (accepting : state ∈ c.automaton.accepting) (here : some state ∈ c.positions told) :
    goalPosition c ∈ c.positions (told ++ [.join]) := by
  rw [goalPosition_of_several several, Constraint.positions_concat, mem_moveAll]
  refine .inr ⟨some state, here, ?_⟩
  exact Constraint.mem_successors_join.mpr ⟨rfl, several, state, accepting, rfl⟩

/-- After a first join every constraint that accepts what it heard is at its target. -/
theorem goalPosition_mem_of_accepts (valid : c.automaton.WellFormed .constraint)
    {told : List Signal} (alone : .join ∉ told) (accepts : c.automaton.Accepts (heard told)) :
    goalPosition c ∈ c.positions (told ++ [.join]) := by
  cases several : needsJoint c with
  | true =>
    obtain ⟨state, reached, accepting⟩ := accepts
    apply goalPosition_mem_of_join several accepting
    rw [Constraint.positions_of_alone _ (.inr alone)]
    exact List.mem_map_of_mem reached
  | false => rwa [goalPosition_mem_iff_of_single valid several, Constraint.heard_join]

theorem target_eq : target c = object c (goalPosition c) := by
  unfold target goalPosition
  rcases c.automaton.accepting with _ | ⟨_, _ | _⟩ <;> rfl

section

variable (replicated : e.strategy = .replicated)

include replicated

theorem vocabulary_eq : e.vocabulary = vocabulary := by simp [Encoding.vocabulary, replicated]

theorem domain_eq : (e.task traceId).domain = domain e.options := by
  simp [task, Encoding.domain, Strategy.domain, replicated]

theorem registrations_eq : e.strategy.registrations e.trace e.constraints =
    registrations e.trace e.constraints := by simp [Strategy.registrations, replicated]

theorem init_eq : (e.task traceId).problem.init = init e.trace e.constraints := by
  simp [task, problem, Encoding.init, replicated]

theorem goal_eq : (e.task traceId).problem.goal = goal e.trace e.constraints := by
  simp [task, problem, Encoding.goal, replicated]

theorem constraintFact_eq : e.constraintFact c p = ⟨"cur_state", [object c p]⟩ := by
  cases p <;> simp [constraintFact, place, replicated, object]

theorem name_of_action? {name : String} {action : Action}
    (found : (e.task traceId).domain.action? name = some action) :
    name = "sync" ∨ name = "add" ∨ name = "del" ∨ name = "goto-goal" := by
  rw [domain_eq replicated] at found
  obtain ⟨member, rfl⟩ := Domain.mem_of_action? found
  simp only [domain, List.mem_cons, List.not_mem_nil, or_false] at member
  rcases member with rfl | rfl | rfl | rfl <;>
    simp [Vocabulary.sync, Vocabulary.add, Vocabulary.del, gotoGoal]

variable (valid : e.Accepted)

include valid

theorem object_inj (hc : c ∈ e.constraints) (hd : d ∈ e.constraints) (hp : c.Has p) (hq : d.Has q)
    (same : object c p = object d q) : c = d ∧ p = q := by
  have distinct : (e.constraints.flatMap objects).Nodup := by
    have all := valid.distinct
    simp only [names, registrations_eq replicated, registrations, List.map_append,
      List.nodup_append, List.map_flatMap] at all
    exact all.1.1.2.1
  obtain ⟨each, apart⟩ := List.nodup_flatMap.mp distinct
  have owner : c = d := by
    by_contra different
    have : Std.Symm (Function.onFun List.Disjoint objects) := 
      ⟨fun _ _ disjoint _ here there => disjoint there here⟩
    have disjoint := apart.forall hc hd different
    exact disjoint (mem_objects.mpr ⟨p, hp, rfl⟩) (mem_objects.mpr ⟨q, hq, same⟩)
  subst owner
  refine ⟨rfl, ?_⟩
  have own := each c hc
  rw [objects_eq, List.nodup_append] at own
  obtain ⟨states, _, joint⟩ := own
  have apart {k : Nat} (has : c.Has (some k)) (several : needsJoint c = true) :
      stateObject c k ≠ jointObject c :=
    joint _ (List.mem_map.mpr ⟨_, Automaton.mem_states.mpr ⟨k, has, rfl⟩, rfl⟩) _
      (by rw [if_pos several]; exact List.mem_singleton_self _)
  cases p with
  | some j =>
    cases q with
    | some k =>
      have named : c.automaton.stateName j = c.automaton.stateName k := by
        simpa [object, stateObject, ObjectName.render, String.append_right_inj] using same
      rw [(valid.constraints c hc).stateName_inj states.of_map hq named]
    | none => exact absurd same (apart hp hq)
  | none =>
    cases q with
    | some k => exact absurd same.symm (apart hq hp)
    | none => rfl

theorem named : e.Named where
  trace := valid.traceObject_inj
  constraint := by
    intro c d p q hc hd hp hq same
    simp only [constraintFact_eq replicated, Atom.mk.injEq, List.cons.injEq, and_true,
      true_and] at same
    exact object_inj replicated valid hc hd hp hq same
  apart := by
    intro k c p _ _ same
    simp only [traceFact, constraintFact_eq replicated, Atom.mk.injEq, List.cons.injEq,
      and_true] at same
    have letters := congrArg String.toList same.2
    cases p <;> simp [Automaton.traceObject, object, stateObject, jointObject,
      ObjectName.render] at letters

omit replicated valid in
theorem type_of_mem_constraintRegistrations {r : Registration}
    (member : r ∈ constraintRegistrations c) : r.type = automatonStateType := by
  simp only [constraintRegistrations, List.mem_append, List.mem_map] at member
  rcases member with ⟨_, _, rfl⟩ | joint
  · rfl
  · split at joint
    next => rw [List.mem_singleton.mp joint]
    next => simp at joint

/-- The types that are in use, with their objects. -/
theorem mem_members {type o : String} (leaf : type ∉ ["object", "state", "activity"]) :
    o ∈ (e.task traceId).members (some type) ↔
      (type = traceStateType ∧ ∃ k < e.trace.size, o = e.trace.traceObject k) ∨
      (type = automatonStateType ∧ ∃ c ∈ e.constraints, ∃ p, c.Has p ∧ o = object c p) ∨
      (type = actType ∧ o ∈ activities e.trace e.constraints) ∨
      (type = dummyActType ∧ o = dummyName) := by
  simp only [List.mem_cons, List.not_mem_nil, or_false, not_or] at leaf
  have below : ∀ g ∈ (e.task traceId).domain.types, g.type ≠ some type := by
    rw [domain_eq replicated]
    simp [domain, TypedList.of, stateType, eq_comm, leaf]
  rw [valid.mem_members leaf.1 below, registrations_eq replicated]
  simp only [registrations, traceRegistrations, activityRegistrations, List.mem_append,
    List.mem_map, List.mem_flatMap, List.mem_singleton, Automaton.mem_states, ← mem_objects,
    objects]
  constructor
  · rintro ⟨_, ((⟨_, ⟨k, bound, rfl⟩, rfl⟩ | ⟨c, member, own⟩) | ⟨_, listed, rfl⟩) | rfl, rfl, rfl⟩
    · exact .inl ⟨rfl, k, bound, rfl⟩
    · exact .inr (.inl ⟨type_of_mem_constraintRegistrations own, c, member, _, own, rfl⟩)
    · exact .inr (.inr (.inl ⟨rfl, listed⟩))
    · exact .inr (.inr (.inr ⟨rfl, rfl⟩))
  · rintro (⟨rfl, k, bound, rfl⟩ | ⟨rfl, c, member, r, own, rfl⟩ | ⟨rfl, listed⟩ | ⟨rfl, rfl⟩)
    · exact ⟨_, .inl (.inl (.inl ⟨_, ⟨k, bound, rfl⟩, rfl⟩)), rfl, rfl⟩
    · exact ⟨r, .inl (.inl (.inr ⟨c, member, own⟩)), type_of_mem_constraintRegistrations own, rfl⟩
    · exact ⟨_, .inl (.inr ⟨_, listed, rfl⟩), rfl, rfl⟩
    · exact ⟨_, .inr rfl, rfl, rfl⟩

theorem mem_traceStates {o : String} : o ∈ (e.task traceId).members (some traceStateType) ↔
    ∃ k < e.trace.size, o = e.trace.traceObject k := by
  rw [mem_members replicated valid (by decide)]
  simp [traceStateType, automatonStateType, actType, dummyActType]

theorem mem_activityType {o : String} : o ∈ (e.task traceId).members (some actType) ↔
    o ∈ activities e.trace e.constraints := by
  rw [mem_members replicated valid (by decide)]
  simp [traceStateType, automatonStateType, actType, dummyActType]

theorem mem_automatonStates {o : String} :
    o ∈ (e.task traceId).members (some automatonStateType) ↔
      ∃ c ∈ e.constraints, ∃ p, c.Has p ∧ o = object c p := by
  rw [mem_members replicated valid (by decide)]
  simp [traceStateType, automatonStateType, actType, dummyActType]

theorem mem_dummyActs {o : String} :
    o ∈ (e.task traceId).members (some dummyActType) ↔ o = dummyName := by
  rw [mem_members replicated valid (by decide)]
  simp [traceStateType, automatonStateType, actType, dummyActType]

omit valid in
theorem transition_mem_init {arguments : List String} :
    ⟨"automaton", arguments⟩ ∈ (e.task traceId).init ↔ ∃ c ∈ e.constraints,
      ∃ t ∈ c.automaton.transitions,
        arguments = [stateObject c t.source, t.symbol, stateObject c t.target] := by
  rw [Task.mem_init, init_eq replicated]
  simp [init, traceFacts, constraintFacts, atom_not_mem_jointFacts, eq_comm]

theorem joint_mem_init {arguments : List String} :
    ⟨"dummy_trans", arguments⟩ ∈ (e.task traceId).init ↔ ∃ c ∈ e.constraints,
      needsJoint c = true ∧ ∃ state ∈ c.automaton.accepting,
        arguments = [stateObject c state, dummyName, jointObject c] := by
  have facts : Formula.atom "dummy_trans" arguments ∈ init e.trace e.constraints ↔
      ∃ c ∈ e.constraints, Formula.atom "dummy_trans" arguments ∈ jointFacts c := by
    simp [init, traceFacts, constraintFacts]
  rw [Task.mem_init, init_eq replicated, facts]
  refine exists_congr fun c => and_congr_right fun member => ?_
  exact mem_jointFacts (valid.constraints c member).someAccepting

omit valid in
theorem final_mem_init {arguments : List String} : ⟨"final_state", arguments⟩ ∈
    (e.task traceId).init ↔ arguments = [e.trace.traceObject e.trace.firstAccepting] := by
  rw [Task.mem_init, init_eq replicated]
  simp [init, traceFacts, constraintFacts, atom_not_mem_jointFacts]

omit valid in
theorem traceTransition_mem_init {arguments : List String} :
    ⟨"trace", arguments⟩ ∈ (e.task traceId).init ↔
      ∃ t ∈ e.trace.transitions, arguments = e.trace.transitionObjects t := by
  rw [Task.mem_init, init_eq replicated]
  simp [init, traceFacts, constraintFacts, atom_not_mem_jointFacts, Automaton.transitionObjects,
    eq_comm]

theorem shows_init : e.Shows traceId e.rules.start (e.task traceId).init where
  within := valid.trace.start_lt
  current := by
    rintro ⟨predicate, arguments⟩ (rfl | rfl) <;> rw [Task.mem_init, init_eq replicated] <;>
      simp [init, traceFacts, constraintFacts, atom_not_mem_jointFacts, traceFact,
        vocabulary_eq replicated, vocabulary, Rules.start, rules, constraintFact_eq replicated,
        object]
  fixed _ _ := Iff.rfl
  cost := by
    simp [Task.init, init_eq replicated, init, Rules.start]

/-- What the transitions behind a predicate do to the constraints. The activity is a parameter of
the step and none of the quantified variables. -/
theorem broadcasts_of_transitions {predicate activity : String} {σ : Assignment} {g : Signal}
    (h : e.Shows traceId m s) (bound : activity ≠ "?s1" ∧ activity ≠ "?s2")
    (still : ∀ arguments, ¬IsCurrent ⟨predicate, arguments⟩)
    (listed : ∀ {x y}, ⟨predicate, [x, σ activity, y]⟩ ∈ (e.task traceId).init ↔
      ∃ c ∈ e.constraints, ∃ p q, q ∈ c.successors g p ∧ x = object c p ∧ y = object c q) :
    e.Broadcasts m.signals g ((e.task traceId).changes s (advance predicate activity) σ) := by
  apply Broadcasts.of_mem
  intro change
  have named := named replicated valid
  have quantified : typedNames [.of ["?s1", "?s2"] automatonStateType] =
    [("?s1", some automatonStateType), ("?s2", some automatonStateType)] := rfl
  rw [advance, changes_broadcast, quantified]
  simp only [Task.mem_bindings_cons, Task.mem_bindings_nil]
  constructor
  · rintro ⟨_, ⟨x, _, y, _, rfl⟩, current, transition, changed⟩
    simp only [List.map_cons, Assignment.bind, String.reduceEq, ↓reduceIte, List.map_nil, bound.2,
      bound.1] at current transition changed
    rw [h.fixed _ (still _), listed] at transition
    obtain ⟨c, member, p, q, next, rfl, rfl⟩ := transition
    have has := Constraint.has_of_mem_successors (valid.constraints c member) next
    rw [← constraintFact_eq replicated, h.constraintFact_mem named valid member has.1] at current
    exact ⟨c, member, p, current, q, next, by simpa [constraintFact_eq replicated] using changed⟩
  · rintro ⟨c, member, p, here, q, next, changed⟩
    obtain ⟨has, has'⟩ := Constraint.has_of_mem_successors (valid.constraints c member) next
    have current := (h.constraintFact_mem named valid member has).mpr here
    have transition := listed.mpr ⟨c, member, p, q, next, rfl, rfl⟩
    rw [← h.fixed _ (still _)] at transition
    refine ⟨_, ⟨_, (mem_automatonStates replicated valid).mpr ⟨c, member, p, has, rfl⟩,
      _, (mem_automatonStates replicated valid).mpr ⟨c, member, q, has', rfl⟩, rfl⟩, ?_, ?_, ?_⟩
    · simpa [constraintFact_eq replicated, Assignment.bind] using current
    · simpa [Assignment.bind, bound.1, bound.2] using transition
    · simpa [constraintFact_eq replicated, Assignment.bind] using changed

theorem broadcasts {σ : Assignment} {symbol : String} (h : e.Shows traceId m s)
    (names : σ "?e" = symbol) : e.Broadcasts m.signals (.activity symbol)
      ((e.task traceId).changes s e.vocabulary.advanceConstraints σ) := by
  rw [vocabulary_eq replicated, vocabulary]
  apply broadcasts_of_transitions replicated valid h (by decide) (by simp [IsCurrent])
  intro x y
  rw [transition_mem_init replicated, names]
  constructor
  · rintro ⟨c, member, t, taken, same⟩
    simp only [List.cons.injEq, and_true] at same
    obtain ⟨rfl, rfl, rfl⟩ := same
    refine ⟨c, member, some t.source, some t.target, ?_, rfl, rfl⟩
    exact Constraint.mem_successors_activity.mpr ⟨t, taken, rfl, rfl, rfl⟩
  · rintro ⟨c, member, p, q, next, rfl, rfl⟩
    obtain ⟨t, taken, rfl, rfl, rfl⟩ := Constraint.mem_successors_activity.mp next
    exact ⟨c, member, t, taken, rfl⟩

theorem broadcasts_join {σ : Assignment} (h : e.Shows traceId m s) (names : σ "?de" = dummyName) :
    e.Broadcasts m.signals .join
      ((e.task traceId).changes s (advance "dummy_trans" "?de") σ) := by
  apply broadcasts_of_transitions replicated valid h (by decide) (by simp [IsCurrent])
  intro x y
  rw [joint_mem_init replicated valid, names]
  constructor
  · rintro ⟨c, member, several, state, accepting, same⟩
    simp only [List.cons.injEq, and_true, true_and] at same
    obtain ⟨rfl, rfl⟩ := same
    refine ⟨c, member, some state, none, ?_, rfl, rfl⟩
    exact Constraint.mem_successors_join.mpr ⟨rfl, several, state, accepting, rfl⟩
  · rintro ⟨c, member, p, q, next, rfl, rfl⟩
    obtain ⟨rfl, several, state, accepting, rfl⟩ := Constraint.mem_successors_join.mp next
    exact ⟨c, member, several, state, accepting, rfl⟩

theorem traceCurrent_mem (h : e.Shows traceId m s) {k : Nat} :
    ⟨"cur_state", [e.trace.traceObject k]⟩ ∈ s ↔ k = m.trace := by
  have current := h.traceFact_mem (named replicated valid) valid (k := k)
  rwa [traceFact, vocabulary_eq replicated] at current

omit valid in
theorem final_mem (h : e.Shows traceId m s) {o : String} : ⟨"final_state", [o]⟩ ∈ s ↔
    o = e.trace.traceObject e.trace.firstAccepting := by
  rw [h.fixed _ (by simp [IsCurrent]), final_mem_init replicated, List.singleton_inj]

/-- The step into the joint states can be taken where the trace is done. -/
theorem next?_gotoGoal (h : e.Shows traceId m s) {arguments : List String} :
    (e.task traceId).next? s ⟨"goto-goal", arguments⟩ = some s' ↔
      arguments = [e.trace.traceObject e.trace.firstAccepting, dummyName] ∧
        m.trace = e.trace.firstAccepting ∧
        s' = s.apply ((e.task traceId).changes s (gotoGoal e.options.gotoGoalCost).effect
          ((Assignment.bind id "?de" dummyName).bind "?t1"
            (e.trace.traceObject e.trace.firstAccepting))) := by
  have known : (e.task traceId).domain.action? "goto-goal" =
      some (gotoGoal e.options.gotoGoalCost) := by rw [domain_eq replicated]; rfl
  have names : typedNames (gotoGoal e.options.gotoGoalCost).parameters =
    [("?t1", some traceStateType), ("?de", some dummyActType)] := rfl
  have holds (σ : Assignment) : (e.task traceId).holds s
      (gotoGoal e.options.gotoGoalCost).precondition σ = true ↔
      ⟨"cur_state", [σ "?t1"]⟩ ∈ s ∧ ⟨"final_state", [σ "?t1"]⟩ ∈ s := by
    simp [gotoGoal, Task.holds, Task.allHold, State.mem_def]
  rw [Task.next?_eq_some]
  constructor
  · rintro ⟨action, σ, found, assigned, true, rfl⟩
    obtain rfl := Option.some.inj (known.symm.trans found)
    rw [names, Task.assign?_cons] at assigned
    obtain ⟨x, _, _, rfl, _, rest, rfl⟩ := assigned
    obtain ⟨y, _, _, rfl, dummy, nothing, rfl⟩ := Task.assign?_cons.mp rest
    obtain ⟨rfl, rfl⟩ := Task.assign?_nil.mp nothing
    obtain rfl := (mem_dummyActs replicated valid).mp dummy
    rw [holds, Assignment.bind_same] at true
    obtain rfl := (final_mem replicated h).mp true.2
    exact ⟨rfl, ((traceCurrent_mem replicated valid h).mp true.1).symm, rfl⟩
  · rintro ⟨rfl, done, rfl⟩
    refine ⟨_, _, known, ?_, (holds _).mpr ?_, rfl⟩
    · rw [names, Task.assign?_cons]
      refine ⟨_, _, _, rfl, (mem_traceStates replicated valid).mpr
        ⟨_, valid.trace.firstAccepting_lt, rfl⟩, Task.assign?_cons.mpr ⟨_, _, _, rfl,
        (mem_dummyActs replicated valid).mpr rfl, Task.assign?_nil.mpr ⟨rfl, rfl⟩, rfl⟩, rfl⟩
    · rw [Assignment.bind_same]
      exact ⟨(traceCurrent_mem replicated valid h).mpr done.symm, (final_mem replicated h).mpr rfl⟩

theorem shows_join (h : e.Shows traceId m s) {σ : Assignment} (names : σ "?de" = dummyName) :
    e.Shows traceId (e.rules.advance m .join)
      (s.apply ((e.task traceId).changes s (gotoGoal e.options.gotoGoalCost).effect σ)) := by
  have moved := broadcasts_join replicated valid h names
  have named := named replicated valid
  cases cost : e.options.gotoGoalCost with
  | free =>
    have joined := h.broadcast named valid moved
    simpa [gotoGoal, GotoGoalCost.amount, Task.changes, Task.allChanges, Rules.advance, rules,
      Move.taken?, Move.signal?, Rules.cost, replicated, cost] using joined
  | unit =>
    have joined := (h.charge 1).broadcast_after named valid rfl (by simp) moved
    simpa [gotoGoal, GotoGoalCost.amount, charge, Task.changes, Task.allChanges, Rules.advance,
      rules, Move.taken?, Move.signal?, Rules.cost, replicated, cost] using joined

theorem faithful : e.Faithful traceId where
  toNamed := named replicated valid
  valid := valid
  sync := by rw [domain_eq replicated, vocabulary_eq replicated]; rfl
  add := by rw [domain_eq replicated, vocabulary_eq replicated]; rfl
  del := by rw [domain_eq replicated, vocabulary_eq replicated]; rfl
  actions := name_of_action? replicated
  traceStates := mem_traceStates replicated valid
  activities := by rw [vocabulary_eq replicated]; exact mem_activityType replicated valid
  transitions := by rw [vocabulary_eq replicated]; exact traceTransition_mem_init replicated
  initial := shows_init replicated valid
  advance := broadcasts replicated valid
  joined h taken := by
    obtain ⟨rfl, done, rfl⟩ := (next?_gotoGoal replicated valid h).mp taken
    exact ⟨rfl, ⟨by simp [rules, replicated], done⟩, shows_join replicated valid h rfl⟩
  joins h allowed := ⟨_, (next?_gotoGoal replicated valid h).mpr ⟨rfl, allowed.2, rfl⟩⟩

/-- The goal asks every constraint to be at its target, whatever its other positions. -/
theorem atGoal_iff (h : e.Shows traceId m s) : (e.task traceId).atGoal s = true ↔
    m.trace = e.trace.firstAccepting ∧
      ∀ c ∈ e.constraints, goalPosition c ∈ c.positions m.signals := by
  have named := named replicated valid
  have final := (final_mem replicated h).mpr rfl
  have done := (traceCurrent_mem replicated valid h (k := e.trace.firstAccepting)).trans eq_comm
  have arrived : (∀ c ∈ e.constraints, ⟨"cur_state", [target c]⟩ ∈ s) ↔
      ∀ c ∈ e.constraints, goalPosition c ∈ c.positions m.signals := by
    refine forall₂_congr fun c member => ?_
    rw [target_eq, ← constraintFact_eq replicated,
      h.constraintFact_mem named valid member (has_goalPosition (valid.constraints c member))]
  rw [← done, ← arrived]
  simp only [State.mem_def] at final ⊢
  simp [Task.atGoal, goal_eq replicated, goal, Task.allHold_eq_true, Task.holds, final]

theorem solves_iff {plan : List Step} {k : Nat} : (e.task traceId).Solves plan k ↔
    ∃ moves : List Move, plan = moves.map (Move.step e.trace) ∧ e.rules.Legal moves ∧
      ((e.rules.after moves).trace = e.trace.firstAccepting ∧
        ∀ c ∈ e.constraints, goalPosition c ∈ c.positions (signals moves)) ∧
      (e.rules.after moves).cost = k :=
  (faithful replicated valid).solves_iff fun _ shown => atGoal_iff replicated valid shown

end

end AlignPlan.Encoding.Replicated
