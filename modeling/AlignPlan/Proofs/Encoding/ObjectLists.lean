import AlignPlan.Proofs.Constraint.CanonicalOrder
import AlignPlan.Proofs.Encoding.LetterCase
import AlignPlan.Proofs.Encoding.Lookups
import Mathlib.Algebra.Ring.Nat

/-! The objects of a task, type by type: which there are, in which order, and how many. -/
namespace AlignPlan

namespace Planning

theorem objectsOfType_append (objects others : List Object) (type : String) :
    objectsOfType (objects ++ others) type =
      objectsOfType objects type ++ objectsOfType others type := by
  simp [objectsOfType]

theorem objectsOfType_map {α : Type} (xs : List α) (name : α → String) (own type : String) :
    objectsOfType (xs.map fun x => ⟨name x, own⟩) type =
      if own = type then xs.map name else [] := by
  by_cases same : own = type <;> simp [objectsOfType, List.filter_map, Function.comp_def, same]

end Planning

theorem AutomatonId.compare_eq_lt {a b : AutomatonId} (le : a.le b = true) (different : a ≠ b) :
    compare a b = .lt := by
  cases order : compare a b with
  | lt => rfl
  | eq => exact absurd (Std.LawfulEqCmp.eq_of_compare order) different
  | gt => simp [AutomatonId.le, order] at le

/-- Constraints with ids of their own stand in strictly ascending order. -/
theorem pairwise_lt_canonicalOrder {constraints : List Constraint}
    (distinct : constraints.Pairwise fun c d => c.id ≠ d.id) :
    (canonicalOrder constraints).Pairwise fun c d => AutomatonId.compare c.id d.id = .lt := by
  have sorted : (canonicalOrder constraints).Perm constraints := List.mergeSort_perm _ _
  have different := sorted.symm.pairwise distinct fun apart => apart.symm
  exact (pairwise_canonicalOrder constraints).and different |>.imp fun both =>
    AutomatonId.compare_eq_lt both.1 both.2

namespace Encoding

open Planning

/-- What the objects of both encodings have in common. -/
structure CommonObjects (trace : Automaton) (constraints : List Constraint) (activityType : String)
    (objects : List Object) : Prop where
  traceStates : objectsOfType objects "trace_state" = trace.states.map fun state => "t" ++ state
  activities : FirstOccurrences
    (trace.alphabet ++ constraints.flatMap fun c => c.automaton.alphabet)
    (objectsOfType objects activityType)
  apart : objects.Pairwise fun o o' => ¬Name.Alike o.name o'.name

/-- The states of a constraint in order, and the joint state of a constraint that has one. -/
def stateObjects (c : Constraint) : List String :=
  (c.automaton.states.map fun state => "s_" ++ c.id.text ++ "_" ++ state) ++
    if 2 ≤ c.automaton.accepting.length then ["gs_" ++ c.id.text] else []

structure ReplicatedObjects (trace : Automaton) (constraints : List Constraint)
    (objects : List Object) : Prop extends CommonObjects trace constraints "act" objects where
  automatonStates : objectsOfType objects "automaton_state" = constraints.flatMap stateObjects
  count : (objectsOfType objects "automaton_state").length = (constraints.map fun c =>
    c.automaton.size + if 1 < c.automaton.accepting.length then 1 else 0).sum
  dummies : objectsOfType objects "dummy_act" = ["dummy"]
  types : ∀ o ∈ objects, o.type ∈ ["trace_state", "automaton_state", "act", "dummy_act"]

structure SharedObjects (trace : Automaton) (constraints : List Constraint)
    (objects : List Object) : Prop extends CommonObjects trace constraints "activity" objects where
  automata : objectsOfType objects "automaton" = constraints.map fun c => "a" ++ c.id.text
  pool : ∃ size, (∃ c ∈ constraints, c.automaton.size = size) ∧
    (∀ c ∈ constraints, c.automaton.size ≤ size) ∧
    objectsOfType objects "automaton_state" =
      (List.range size).map fun index => "s" ++ Decimal.render index
  types : ∀ o ∈ objects, o.type ∈ ["automaton", "trace_state", "automaton_state", "activity"]

variable {strategy : Strategy} {options : Options} {trace : Automaton}
  {constraints : List Constraint} {e : Encoding}

theorem map_object_traceRegistrations : (traceRegistrations trace).map Registration.object =
    trace.states.map fun state => ⟨"t" ++ state, "trace_state"⟩ := by
  rw [traceRegistrations, List.map_map]
  rfl

theorem map_object_activityRegistrations (type : String) :
    (activityRegistrations trace constraints type).map Registration.object =
      (activities trace constraints).map fun symbol => ⟨symbol, type⟩ := by
  rw [activityRegistrations, List.map_map]
  rfl

namespace Replicated

theorem map_object_constraintRegistrations (c : Constraint) :
    (constraintRegistrations c).map Registration.object =
      (stateObjects c).map fun name => ⟨name, "automaton_state"⟩ := by
  have several : needsJoint c = decide (2 ≤ c.automaton.accepting.length) := rfl
  rw [constraintRegistrations, stateObjects, List.map_append, List.map_map, List.map_append,
    List.map_map, several]
  by_cases many : 2 ≤ c.automaton.accepting.length
  · simp only [many, decide_true, if_true]
    rfl
  · simp only [many, decide_false, if_false, Bool.false_eq_true]
    rfl

theorem map_object_registrations : (registrations trace constraints).map Registration.object =
    (trace.states.map fun state => ⟨"t" ++ state, "trace_state"⟩) ++
      (constraints.flatMap stateObjects).map (fun name => ⟨name, "automaton_state"⟩) ++
      ((activities trace constraints).map fun symbol => ⟨symbol, "act"⟩) ++
      [⟨"dummy", "dummy_act"⟩] := by
  rw [registrations, List.map_append, List.map_append, List.map_append, List.map_flatMap,
    map_object_traceRegistrations, map_object_activityRegistrations, List.map_flatMap]
  simp only [map_object_constraintRegistrations]
  rfl

theorem length_stateObjects (c : Constraint) : (stateObjects c).length =
    c.automaton.size + if 1 < c.automaton.accepting.length then 1 else 0 := by
  rw [stateObjects, List.length_append, List.length_map, apply_ite List.length]
  rfl

theorem objects_complete {objects : List Object}
    (made : objects = (registrations trace constraints).map Registration.object)
    (apart : objects.Pairwise fun o o' => ¬Name.Alike o.name o'.name) :
    ReplicatedObjects trace constraints objects := by
  rw [map_object_registrations] at made
  have ofType (type : String) : objectsOfType objects type =
      (if "trace_state" = type then trace.states.map fun state => "t" ++ state else []) ++
      (if "automaton_state" = type then constraints.flatMap stateObjects else []) ++
      (if "act" = type then activities trace constraints else []) ++
      if "dummy_act" = type then ["dummy"] else [] := by
    have dummy := objectsOfType_map [()] (fun _ => "dummy") "dummy_act" type
    rw [made, objectsOfType_append, objectsOfType_append, objectsOfType_append, objectsOfType_map,
      objectsOfType_map, objectsOfType_map, List.map_id', List.map_id']
    exact congrArg _ dummy
  have automatonStates : objectsOfType objects "automaton_state" =
      constraints.flatMap stateObjects := by simp [ofType]
  refine { traceStates := by simp [ofType], activities := ?_, apart, automatonStates, count := ?_,
           dummies := by simp [ofType], types := ?_ }
  · have listed : objectsOfType objects "act" = activities trace constraints := by simp [ofType]
    rw [listed]
    exact firstOccurrences_distinct _
  · rw [automatonStates, List.length_flatMap]
    simp only [length_stateObjects]
  · intro o member
    simp only [made, List.mem_append, List.mem_map, List.mem_singleton] at member
    rcases member with ((⟨_, _, rfl⟩ | ⟨_, _, rfl⟩) | ⟨_, _, rfl⟩) | rfl <;> simp

end Replicated

namespace Shared

theorem map_object_registrations : (registrations trace constraints).map Registration.object =
    (constraints.map fun c => ⟨"a" ++ c.id.text, "automaton"⟩) ++
      (trace.states.map fun state => ⟨"t" ++ state, "trace_state"⟩) ++
      ((List.range (poolSize constraints)).map fun index =>
        ⟨"s" ++ Decimal.render index, "automaton_state"⟩) ++
      (activities trace constraints).map fun symbol => ⟨symbol, "activity"⟩ := by
  rw [registrations, List.map_append, List.map_append, List.map_append, List.map_map, List.map_map,
    map_object_traceRegistrations, map_object_activityRegistrations]
  rfl

/-- The pool is as large as the largest constraint. -/
theorem exists_size_eq_poolSize (nonempty : constraints ≠ []) :
    ∃ c ∈ constraints, c.automaton.size = poolSize constraints := by
  cases size : poolSize constraints with
  | zero =>
    obtain ⟨c, member⟩ := List.exists_mem_of_ne_nil constraints nonempty
    have := size_le_poolSize member
    exact ⟨c, member, by omega⟩
  | succ last =>
    have below : last < poolSize constraints := by omega
    obtain ⟨c, member, larger⟩ := lt_poolSize.mp below
    have := size_le_poolSize member
    exact ⟨c, member, by omega⟩

theorem objects_complete {objects : List Object} (nonempty : constraints ≠ [])
    (made : objects = (registrations trace constraints).map Registration.object)
    (apart : objects.Pairwise fun o o' => ¬Name.Alike o.name o'.name) :
    SharedObjects trace constraints objects := by
  rw [map_object_registrations] at made
  have ofType (type : String) : objectsOfType objects type =
      (if "automaton" = type then constraints.map fun c => "a" ++ c.id.text else []) ++
      (if "trace_state" = type then trace.states.map fun state => "t" ++ state else []) ++
      (if "automaton_state" = type then (List.range (poolSize constraints)).map fun index =>
        "s" ++ Decimal.render index else []) ++
      if "activity" = type then activities trace constraints else [] := by
    rw [made, objectsOfType_append, objectsOfType_append, objectsOfType_append, objectsOfType_map,
      objectsOfType_map, objectsOfType_map, objectsOfType_map, List.map_id']
  refine { traceStates := by simp [ofType], activities := ?_, apart, automata := by simp [ofType],
           pool := ?_, types := ?_ }
  · have listed : objectsOfType objects "activity" = activities trace constraints := by
      simp [ofType]
    rw [listed]
    exact firstOccurrences_distinct _
  · exact ⟨poolSize constraints, exists_size_eq_poolSize nonempty,
      fun c member => size_le_poolSize member, by simp [ofType]⟩
  · intro o member
    simp only [made, List.mem_append, List.mem_map] at member
    rcases member with ((⟨_, _, rfl⟩ | ⟨_, _, rfl⟩) | ⟨_, _, rfl⟩) | ⟨_, _, rfl⟩ <;> simp

end Shared

/-- All objects of a task: of every type those there have to be, in order, and no two with names
that differ in letter case at most. -/
theorem object_lists (made : Encoding.of strategy options trace constraints = .ok e)
    (traceId : Nat) :
    e.constraints.Perm constraints ∧
    e.constraints.Pairwise (fun c d => AutomatonId.compare c.id d.id = .lt) ∧
    match strategy with
    | .replicated => ReplicatedObjects trace e.constraints (e.problem traceId).objects
    | .shared => SharedObjects trace e.constraints (e.problem traceId).objects := by
  obtain ⟨valid, needed, distinct, rfl⟩ := of_eq_ok.mp made
  obtain ⟨_, _, ids⟩ := inputFault?_eq_none.mp valid
  have sorted : (canonicalOrder constraints).Perm constraints := List.mergeSort_perm _ _
  refine ⟨sorted, pairwise_lt_canonicalOrder ids, ?_⟩
  let e : Encoding := ⟨strategy, options, trace, canonicalOrder constraints,
    ⟨(strategy.registrations trace (canonicalOrder constraints)).map Registration.entry⟩⟩
  have objects : (e.problem traceId).objects =
      (strategy.registrations trace (canonicalOrder constraints)).map Registration.object :=
    (accepted made).objects
  have apart : (e.problem traceId).objects.Pairwise fun o o' => ¬Name.Alike o.name o'.name := by
    rw [objects]
    exact List.pairwise_map.mpr (List.pairwise_map.mp distinct)
  cases strategy with
  | replicated => exact Replicated.objects_complete objects apart
  | shared =>
    have nonempty : canonicalOrder constraints ≠ [] := fun empty =>
      needed rfl (List.Perm.nil_eq (empty ▸ sorted)).symm
    exact Shared.objects_complete nonempty objects apart

/-- Two constraints that share a symbol, one of them with two accepting states. -/
theorem object_lists_sample :
    let options : Options := ⟨.unconstrained, .free, false⟩
    let constraints := [Sample.absence, Sample.existence]
    let replicated := ((Sample.encoding .replicated options constraints).problem 0).objects
    let shared := ((Sample.encoding .shared options constraints).problem 0).objects
    ReplicatedObjects Sample.trace constraints replicated ∧
    SharedObjects Sample.trace constraints shared ∧
    objectsOfType replicated "automaton_state" =
      ["s_1_q0", "s_1_q1", "s_1_q2", "gs_1", "s_2_r0", "s_2_r1"] ∧
    objectsOfType replicated "act" = ["b", "a"] ∧
    objectsOfType shared "automaton_state" = ["s0", "s1", "s2"] ∧
    objectsOfType shared "automaton" = ["a1", "a2"] := by
  intro options constraints replicated shared
  obtain ⟨_, _, replicatedLists⟩ := object_lists (Sample.made_both .replicated options) 0
  obtain ⟨_, _, sharedLists⟩ := object_lists (Sample.made_both .shared options) 0
  exact ⟨replicatedLists, sharedLists, by decide +kernel, by decide +kernel, by decide +kernel,
    by decide +kernel⟩

end Encoding

end AlignPlan
