import AlignPlan.Proofs.Encoding.Lookups
import AlignPlan.Proofs.Encoding.ObjectNames
import AlignPlan.Proofs.Encoding.Replicated
import AlignPlan.Proofs.Planning.Typing
import AlignPlan.Proofs.Planning.WrittenForm

/-! The problems of encodings are closed and well typed in the domain they come with. -/
namespace AlignPlan

open Planning

theorem Name.isVariable_eq_false {text : String} (named : isPlanningName text = true) :
    isVariable text = false := by
  simp only [isPlanningName, Bool.and_eq_true] at named
  cases first : text.toList with
  | nil => simp [first] at named
  | cons c cs =>
    have letter : c.isAlpha = true := by simpa [first] using named.1
    have other : c ≠ '?' := by rintro rfl; exact absurd letter (by decide)
    simp [isVariable, first, other]

namespace Encoding

variable {e : Encoding} {traceId : Nat} {scope : Scope} {name : String}

theorem Accepted.fits (valid : e.Accepted) {required : Option String}
    (listed : name ∈ (e.task traceId).members required) :
    (e.task traceId).fits scope required name = true := by
  have objects : (e.task traceId).problem.objects = e.table.objects := rfl
  apply Task.fits_of_mem_members _ _ listed
  · rw [objects, valid.objects, List.map_map]
    exact valid.distinct
  · obtain ⟨o, member, _, rfl⟩ := Task.mem_members.mp listed
    rw [objects, valid.objects] at member
    obtain ⟨r, registered, rfl⟩ := List.mem_map.mp member
    exact Name.isVariable_eq_false (ObjectName.isPlanningName_render (valid.checked registered))

/-- Types without subtypes tell objects by their own type. -/
theorem mem_objects_iff {type : String} (named : type ≠ "object")
    (leaf : ∀ g ∈ (e.task traceId).domain.types, g.type ≠ some type) :
    ⟨name, type⟩ ∈ (e.problem traceId).objects ↔ name ∈ (e.task traceId).members (some type) := by
  have admits (t : String) : (e.task traceId).domain.admits (some type) t = true ↔ t = type :=
    Domain.admits_of_leaf named leaf
  simp only [Task.mem_members, admits]
  constructor
  · exact fun listed => ⟨_, listed, rfl, rfl⟩
  · rintro ⟨o, listed, rfl, rfl⟩
    exact listed

/-- A joint state as an object. -/
def joint (id : AutomatonId) : Object := ⟨(ObjectName.jointAccept id).render, automatonStateType⟩

/-- What mentions the joint state of an id in a problem. -/
structure JointMentions (p : Problem) (id : AutomatonId) : Prop where
  init : joint id ∈ p.objects ↔
    ∃ arguments, .atom "dummy_trans" arguments ∈ p.init ∧ (joint id).name ∈ arguments
  goal : joint id ∈ p.objects ↔ ∃ f ∈ p.goal, (joint id).name ∈ f.labels

theorem joint_name_ne {id : AutomatonId} {text : String} (apart : text.toList.head? ≠ some 'g') :
    (joint id).name ≠ text := by
  rintro rfl
  simp [joint, ObjectName.render] at apart

theorem joint_name_ne_traceObject {id : AutomatonId} {trace : Automaton} {k : Nat} :
    (joint id).name ≠ trace.traceObject k :=
  joint_name_ne (by simp [Automaton.traceObject, ObjectName.render])

theorem joint_mem_labels {id : AutomatonId} {predicate argument : String}
    (apart : predicate.toList.head? ≠ some 'g') :
    (joint id).name ∈ (Formula.atom predicate [argument]).labels ↔
      (joint id).name = argument := by
  simp [Formula.labels, joint_name_ne apart]

namespace Replicated

/-- Trace states and automaton states may stand for states of any kind. -/
theorem admits_state {options : Options} {kind : String}
    (known : kind = traceStateType ∨ kind = automatonStateType) (type : String)
    (admitted : (domain options).admits (some kind) type = true) :
    (domain options).admits (some stateType) type = true := by
  have leaf : ∀ g ∈ (domain options).types, g.type ≠ some kind := by
    rcases known with rfl | rfl <;>
      simp [domain, TypedList.of, stateType, traceStateType, automatonStateType]
  rcases known with rfl | rfl <;>
    obtain rfl := (Domain.admits_of_leaf (by decide) leaf).mp admitted <;> rfl

theorem exists_of_mem_jointFacts {c : Constraint} {f : Formula}
    (nonempty : c.automaton.accepting ≠ []) (member : f ∈ jointFacts c) : needsJoint c = true ∧
      ∃ state ∈ c.automaton.accepting,
        f = .atom "dummy_trans" [stateObject c state, dummyName, jointObject c] := by
  unfold jointFacts at member
  unfold needsJoint
  match c.automaton.accepting, nonempty, member with
  | [_], _, member => simp at member
  | _ :: _ :: _, _, member =>
    obtain ⟨state, accepting, rfl⟩ := List.mem_map.mp member
    exact ⟨by simp, state, accepting, rfl⟩

theorem joint_eq_object {id : AutomatonId} {c : Constraint} {p : Position} :
    (joint id).name = object c p ↔ p = none ∧ c.id = id := by
  cases p with
  | none => simp [joint, object, jointObject, ObjectName.render, AutomatonId.text_inj, eq_comm]
  | some k =>
    simp only [reduceCtorEq, false_and, iff_false]
    exact joint_name_ne (by simp [object, stateObject, ObjectName.render])

section

variable (replicated : e.strategy = .replicated)

include replicated

/-- The predicates of one state take states of the trace and of constraints. -/
theorem wellTyped_state {predicate kind : String}
    (declared : predicate = "cur_state" ∨ predicate = "final_state")
    (known : kind = traceStateType ∨ kind = automatonStateType)
    (fit : (e.task traceId).fits scope (some kind) name = true) :
    (e.task traceId).wellTyped scope (.atom predicate [name]) = true := by
  have found : (e.task traceId).domain.predicate? predicate =
      some ⟨predicate, [.of ["?s"] stateType]⟩ := by
    rw [domain_eq replicated]
    rcases declared with rfl | rfl <;> rfl
  refine (Task.wellTyped_atom found).mpr (.cons ?_ .nil)
  refine Task.fits_mono ?_ fit
  rw [domain_eq replicated]
  exact admits_state known

variable (valid : e.Accepted)

include valid

theorem fits_trace {k : Nat} (bound : k < e.trace.size) :
    (e.task traceId).fits scope (some traceStateType) (e.trace.traceObject k) = true :=
  valid.fits ((mem_traceStates replicated valid).mpr ⟨k, bound, rfl⟩)

theorem fits_object {c : Constraint} (member : c ∈ e.constraints) {p : Position} (has : c.Has p) :
    (e.task traceId).fits scope (some automatonStateType) (object c p) = true :=
  valid.fits ((mem_automatonStates replicated valid).mpr ⟨c, member, p, has, rfl⟩)

theorem fits_symbol {symbol : String} (known : symbol ∈ activities e.trace e.constraints) :
    (e.task traceId).fits scope (some actType) symbol = true :=
  valid.fits ((mem_activityType replicated valid).mpr known)

theorem wellTyped_constraintFacts {c : Constraint} (member : c ∈ e.constraints) :
    ∀ f ∈ constraintFacts c, (e.task traceId).wellTyped scope f = true := by
  have wellFormed := valid.constraints c member
  have fit (p : Position) (has : c.Has p) :
      (e.task traceId).fits scope (some automatonStateType) (object c p) = true :=
    fits_object replicated valid member has
  have declared : (e.task traceId).domain = domain e.options := domain_eq replicated
  intro f listed
  simp only [constraintFacts, List.mem_append, List.mem_cons, List.mem_map] at listed
  rcases listed with (rfl | ⟨t, taken, rfl⟩) | joint
  · exact wellTyped_state replicated (.inl rfl) (.inr rfl) (fit (some _) wellFormed.start_lt)
  · obtain ⟨source, target, symbol⟩ := wellFormed.transitions t taken
    have known : (e.task traceId).fits scope (some actType) t.symbol = true :=
      fits_symbol replicated valid (mem_activities.mpr (.inr ⟨c, member, symbol⟩))
    refine (Task.wellTyped_atom (by rw [declared]; rfl)).mpr ?_
    exact .cons (fit (some _) source) (.cons known (.cons (fit (some _) target) .nil))
  · obtain ⟨several, state, accepting, rfl⟩ :=
      exists_of_mem_jointFacts wellFormed.someAccepting joint
    have source := fit (some state) (wellFormed.accepting state accepting)
    have dummy : (e.task traceId).fits scope (some dummyActType) dummyName = true :=
      valid.fits ((mem_dummyActs replicated valid).mpr rfl)
    refine (Task.wellTyped_atom (by rw [declared]; rfl)).mpr ?_
    exact .cons source (.cons dummy (.cons (fit none several) .nil))

theorem wellTyped_init : ∀ f ∈ (e.task traceId).problem.init,
    (e.task traceId).wellTyped scope f = true := by
  have declared : (e.task traceId).domain = domain e.options := domain_eq replicated
  have start : (e.task traceId).fits scope (some traceStateType) _ = true :=
    fits_trace replicated valid valid.trace.start_lt
  have done : (e.task traceId).fits scope (some traceStateType) _ = true :=
    fits_trace replicated valid valid.trace.firstAccepting_lt
  intro f listed
  rw [init_eq replicated] at listed
  simp only [init, traceFacts, List.mem_append, List.mem_cons, List.mem_map, List.mem_flatMap,
    List.not_mem_nil, or_false] at listed
  rcases listed with ((rfl | rfl | rfl) | ⟨t, taken, rfl⟩) | ⟨c, member, own⟩
  · rw [Task.wellTyped, declared]
    rfl
  · exact wellTyped_state replicated (.inl rfl) (.inl rfl) start
  · exact wellTyped_state replicated (.inr rfl) (.inl rfl) done
  · obtain ⟨source, target, symbol⟩ := valid.trace.transitions t taken
    have known : (e.task traceId).fits scope (some actType) t.symbol = true :=
      fits_symbol replicated valid (mem_activities.mpr (.inl symbol))
    refine (Task.wellTyped_atom (by rw [declared]; rfl)).mpr ?_
    exact .cons (fits_trace replicated valid source)
      (.cons known (.cons (fits_trace replicated valid target) .nil))
  · exact wellTyped_constraintFacts replicated valid member f own

theorem wellTyped_goal : ∀ f ∈ (e.task traceId).problem.goal,
    (e.task traceId).wellTyped scope f = true := by
  have done : (e.task traceId).fits scope (some traceStateType) _ = true :=
    fits_trace replicated valid valid.trace.firstAccepting_lt
  intro f listed
  rw [goal_eq replicated] at listed
  simp only [goal, List.mem_append, List.mem_cons, List.mem_map, List.not_mem_nil,
    or_false] at listed
  rcases listed with (rfl | rfl) | ⟨c, member, rfl⟩
  · exact wellTyped_state replicated (.inr rfl) (.inl rfl) done
  · exact wellTyped_state replicated (.inl rfl) (.inl rfl) done
  · have has := has_goalPosition (valid.constraints c member)
    rw [target_eq]
    exact wellTyped_state replicated (.inl rfl) (.inr rfl) (fits_object replicated valid member has)

theorem state_mem_objects : ⟨name, automatonStateType⟩ ∈ (e.problem traceId).objects ↔
    ∃ c ∈ e.constraints, ∃ p, c.Has p ∧ name = object c p := by
  have leaf : ∀ g ∈ (e.task traceId).domain.types, g.type ≠ some automatonStateType := by
    rw [domain_eq replicated]
    simp [domain, TypedList.of, stateType, automatonStateType]
  rw [mem_objects_iff (by decide) leaf, mem_automatonStates replicated valid]

theorem joint_mem_objects {id : AutomatonId} : joint id ∈ (e.problem traceId).objects ↔
    ∃ c ∈ e.constraints, needsJoint c = true ∧ c.id = id := by
  rw [joint, state_mem_objects replicated valid]
  constructor
  · rintro ⟨c, member, p, has, same⟩
    obtain ⟨rfl, rfl⟩ := joint_eq_object.mp same
    exact ⟨c, member, has, rfl⟩
  · rintro ⟨c, member, several, rfl⟩
    exact ⟨c, member, none, several, rfl⟩

theorem jointMentions (id : AutomatonId) : JointMentions (e.problem traceId) id where
  init := by
    have facts (arguments : List String) :
        .atom "dummy_trans" arguments ∈ (e.problem traceId).init ↔ ∃ c ∈ e.constraints,
          needsJoint c = true ∧ ∃ state ∈ c.automaton.accepting,
            arguments = [object c (some state), dummyName, object c none] :=
      (Task.mem_init (t := e.task traceId) (a := ⟨"dummy_trans", arguments⟩)).symm.trans
        (joint_mem_init replicated valid)
    have other : (joint id).name ≠ dummyName := joint_name_ne (by decide)
    rw [joint_mem_objects replicated valid]
    simp only [facts]
    constructor
    · rintro ⟨c, member, several, owned⟩
      obtain ⟨state, accepting⟩ :=
        List.exists_mem_of_ne_nil _ (valid.constraints c member).someAccepting
      refine ⟨_, ⟨c, member, several, state, accepting, rfl⟩, ?_⟩
      simp [joint_eq_object, owned]
    · rintro ⟨_, ⟨c, member, several, state, _, rfl⟩, mentioned⟩
      simp only [List.mem_cons, joint_eq_object, other, reduceCtorEq, false_and, false_or,
        true_and, List.not_mem_nil, or_false] at mentioned
      exact ⟨c, member, several, mentioned⟩
  goal := by
    rw [joint_mem_objects replicated valid]
    change _ ↔ ∃ f ∈ (e.task traceId).problem.goal, _
    rw [goal_eq replicated]
    constructor
    · rintro ⟨c, member, several, owned⟩
      refine ⟨.atom "cur_state" [target c], by simp [goal]; exact .inr ⟨c, member, rfl⟩, ?_⟩
      simp [Formula.labels, target_eq, joint_eq_object, goalPosition_of_several several, owned]
    · rintro ⟨f, listed, mentioned⟩
      simp only [goal, List.mem_append, List.mem_cons, List.mem_map, List.not_mem_nil,
        or_false] at listed
      rcases listed with (rfl | rfl) | ⟨c, member, rfl⟩
      · exact absurd ((joint_mem_labels (by decide)).mp mentioned) joint_name_ne_traceObject
      · exact absurd ((joint_mem_labels (by decide)).mp mentioned) joint_name_ne_traceObject
      · rw [joint_mem_labels (by decide), target_eq, joint_eq_object] at mentioned
        have has := has_goalPosition (valid.constraints c member)
        rw [mentioned.1] at has
        exact ⟨c, member, has, mentioned.2⟩

end

end Replicated

namespace Shared

variable (shared : e.strategy = .shared) (valid : e.Accepted)

include shared valid

theorem fits_trace {k : Nat} (bound : k < e.trace.size) :
    (e.task traceId).fits scope (some traceStateType) (e.trace.traceObject k) = true :=
  valid.fits ((mem_traceStates shared valid).mpr ⟨k, bound, rfl⟩)

theorem fits_automaton {c : Constraint} (member : c ∈ e.constraints) :
    (e.task traceId).fits scope (some automatonType) (automatonObject c) = true :=
  valid.fits ((mem_automata shared valid).mpr ⟨c, member, rfl⟩)

theorem fits_pooled {c : Constraint} (member : c ∈ e.constraints) {state : Nat}
    (bound : state < c.automaton.size) :
    (e.task traceId).fits scope (some automatonStateType) (pooled state) = true :=
  valid.fits ((mem_pool shared valid).mpr ⟨state, lt_poolSize.mpr ⟨c, member, bound⟩, rfl⟩)

theorem fits_symbol {symbol : String} (known : symbol ∈ activities e.trace e.constraints) :
    (e.task traceId).fits scope (some activityType) symbol = true :=
  valid.fits ((mem_activityType shared valid).mpr known)

theorem wellTyped_constraintFacts {c : Constraint} (member : c ∈ e.constraints) :
    ∀ f ∈ constraintFacts c, (e.task traceId).wellTyped scope f = true := by
  have wellFormed := valid.constraints c member
  have automaton : (e.task traceId).fits scope (some automatonType) (automatonObject c) = true :=
    fits_automaton shared valid member
  have fit {state : Nat} (bound : state < c.automaton.size) :
      (e.task traceId).fits scope (some automatonStateType) (pooled state) = true :=
    fits_pooled shared valid member bound
  have declared : (e.task traceId).domain = domain e.options := domain_eq shared
  intro f listed
  simp only [constraintFacts, List.mem_append, List.mem_cons, List.mem_map] at listed
  rcases listed with (rfl | ⟨state, accepting, rfl⟩) | ⟨t, taken, rfl⟩ <;>
    refine (Task.wellTyped_atom (by rw [declared]; rfl)).mpr ?_
  · exact .cons automaton (.cons (fit wellFormed.start_lt) .nil)
  · exact .cons automaton (.cons (fit (wellFormed.accepting state accepting)) .nil)
  · obtain ⟨source, target, symbol⟩ := wellFormed.transitions t taken
    have known : (e.task traceId).fits scope (some activityType) t.symbol = true :=
      fits_symbol shared valid (mem_activities.mpr (.inr ⟨c, member, symbol⟩))
    exact .cons automaton (.cons (fit source) (.cons known (.cons (fit target) .nil)))

theorem wellTyped_init : ∀ f ∈ (e.task traceId).problem.init,
    (e.task traceId).wellTyped scope f = true := by
  have declared : (e.task traceId).domain = domain e.options := domain_eq shared
  have fit {k : Nat} (bound : k < e.trace.size) :
      (e.task traceId).fits scope (some traceStateType) (e.trace.traceObject k) = true :=
    fits_trace shared valid bound
  intro f listed
  rw [init_eq shared] at listed
  simp only [init, traceFacts, List.mem_append, List.mem_cons, List.mem_map, List.mem_flatMap,
    List.not_mem_nil, or_false] at listed
  rcases listed with ((rfl | rfl) | ⟨t, taken, rfl⟩) | ⟨c, member, own⟩
  · rw [Task.wellTyped, declared]
    rfl
  · refine (Task.wellTyped_atom (by rw [declared]; rfl)).mpr ?_
    exact .cons (fit valid.trace.start_lt) .nil
  · obtain ⟨source, target, symbol⟩ := valid.trace.transitions t taken
    have known : (e.task traceId).fits scope (some activityType) t.symbol = true :=
      fits_symbol shared valid (mem_activities.mpr (.inl symbol))
    refine (Task.wellTyped_atom (by rw [declared]; rfl)).mpr ?_
    exact .cons (fit source) (.cons known (.cons (fit target) .nil))
  · exact wellTyped_constraintFacts shared valid member f own

theorem wellTyped_goal : ∀ f ∈ (e.task traceId).problem.goal,
    (e.task traceId).wellTyped scope f = true := by
  have declared : (e.task traceId).domain = domain e.options := domain_eq shared
  intro f listed
  rw [goal_eq shared] at listed
  simp only [goal, List.mem_cons, List.not_mem_nil, or_false] at listed
  rcases listed with rfl | rfl
  · refine (Task.wellTyped_atom (by rw [declared]; rfl)).mpr ?_
    exact .cons (fits_trace shared valid valid.trace.firstAccepting_lt) .nil
  -- The goal quantifies over the types that both predicates ask for.
  · have bound : List.Forall₂ (fun v argument => (e.task traceId).fits
        ((typedNames automatonInState).reverse ++ scope) v.2 argument = true)
        (typedNames automatonInState) ["?a", "?s"] := by
      simp only [Task.fits, declared]
      exact .cons rfl (.cons rfl .nil)
    rw [Task.wellTyped, Task.wellTyped, Bool.and_eq_true]
    constructor <;> exact (Task.wellTyped_atom (by rw [declared]; rfl)).mpr bound

theorem pooled_mem_objects {name : String} :
    ⟨name, automatonStateType⟩ ∈ (e.problem traceId).objects ↔
      ∃ state < poolSize e.constraints, name = pooled state := by
  have leaf : ∀ g ∈ (e.task traceId).domain.types, g.type ≠ some automatonStateType := by
    rw [domain_eq shared]
    simp [domain, TypedList.of, TypedList.untyped, stateType, automatonStateType]
  rw [mem_objects_iff (by decide) leaf, mem_pool shared valid]

/-- The shared encoding has no joint states. -/
theorem jointMentions (id : AutomatonId) : JointMentions (e.problem traceId) id := by
  -- Pool objects have the type of joint states, but none has the name of one.
  have unlisted : joint id ∉ (e.problem traceId).objects := by
    rw [joint, pooled_mem_objects shared valid]
    rintro ⟨state, _, same⟩
    exact joint_name_ne (by simp [pooled, ObjectName.render]) same
  constructor
  · have facts (arguments : List String) :
        .atom "dummy_trans" arguments ∉ (e.task traceId).problem.init := by
      rw [init_eq shared]
      simp [init, traceFacts, constraintFacts]
    refine iff_of_false unlisted ?_
    rintro ⟨arguments, listed, _⟩
    exact facts arguments listed
  · refine iff_of_false unlisted ?_
    rintro ⟨f, listed, mentioned⟩
    change f ∈ (e.task traceId).problem.goal at listed
    rw [goal_eq shared] at listed
    simp only [goal, List.mem_cons, List.not_mem_nil, or_false] at listed
    rcases listed with rfl | rfl
    · exact absurd ((joint_mem_labels (by decide)).mp mentioned) joint_name_ne_traceObject
    · have letters : ∀ label ∈ (Formula.forall automatonInState (.imply
          (.atom "cur_state" ["?a", "?s"]) (.atom "final_state" ["?a", "?s"]))).labels,
          label.toList.head? ≠ some 'g' := by decide
      exact joint_name_ne (letters _ mentioned) rfl

end Shared

theorem Accepted.wellTyped (valid : e.Accepted) :
    ∀ f ∈ (e.problem traceId).init ++ (e.problem traceId).goal,
      (e.task traceId).wellTyped scope f = true := by
  rw [List.forall_mem_append]
  cases strategy : e.strategy with
  | replicated =>
    exact ⟨Replicated.wellTyped_init strategy valid, Replicated.wellTyped_goal strategy valid⟩
  | shared => exact ⟨Shared.wellTyped_init strategy valid, Shared.wellTyped_goal strategy valid⟩

/-- Nothing that the problem of an encoding refers to is missing: all look-ups succeed, every atom
is well typed among the objects, joint states are there exactly if they are mentioned, and the
shared pool ends where the largest constraint does. -/
theorem problem_closed {strategy : Strategy} {options : Options} {trace : Automaton}
    {constraints : List Constraint}
    (made : Encoding.of strategy options trace constraints = .ok e) (traceId : Nat) :
    e.problem? traceId = some (e.problem traceId) ∧
    (∀ f ∈ (e.problem traceId).init ++ (e.problem traceId).goal,
      (e.task traceId).wellTyped [] f = true) ∧
    (∀ id, JointMentions (e.problem traceId) id) ∧
    (strategy = .shared → ∀ index, ⟨Shared.pooled index, automatonStateType⟩ ∈
      (e.problem traceId).objects ↔ index < Shared.poolSize e.constraints) := by
  have valid := accepted made
  obtain ⟨rfl, _⟩ := inputs_of_ok made
  refine ⟨valid.problem?_eq_some traceId, valid.wellTyped, ?_⟩
  cases strategy : e.strategy with
  | replicated => exact ⟨Replicated.jointMentions strategy valid, by simp⟩
  | shared =>
    refine ⟨Shared.jointMentions strategy valid, fun _ index => ?_⟩
    rw [Shared.pooled_mem_objects strategy valid]
    simp [Shared.pooled_inj]

/-- A joint state in use, among the problem of two constraints. -/
theorem problem_closed_sample :
    let e := Sample.encoding .replicated ⟨.unconstrained, .unit, false⟩
      [Sample.absence, Sample.existence]
    joint Sample.absence.id ∈ (e.problem 7).objects ∧ e.problem? 7 = some (e.problem 7) ∧
      (∀ f ∈ (e.problem 7).init ++ (e.problem 7).goal, (e.task 7).wellTyped [] f = true) ∧
      ∃ f ∈ (e.problem 7).goal, (joint Sample.absence.id).name ∈ f.labels := by
  have listed : joint Sample.absence.id ∈ ((Sample.encoding .replicated
      ⟨.unconstrained, .unit, false⟩ [Sample.absence, Sample.existence]).problem 7).objects := by
    decide +kernel
  obtain ⟨found, typed, mentions, _⟩ := problem_closed (Sample.made_both .replicated
    ⟨.unconstrained, .unit, false⟩) 7
  exact ⟨listed, found, typed, (mentions _).goal.mp listed⟩

end Encoding

end AlignPlan
