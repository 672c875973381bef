import AlignPlan.Proofs.Constraint.CanonicalOrder
import AlignPlan.Proofs.Encoding.LetterCase
import AlignPlan.Proofs.Encoding.Replicated
import AlignPlan.Proofs.Encoding.Shared
import Mathlib.Data.List.Pairwise

/-! The ways in which objects clash. Objects of different kinds do so only if one of them is an
activity, and valid inputs are encoded exactly if no objects clash. -/
namespace AlignPlan

/-- Objects whose names differ in more than letter case. -/
def Registration.Apart (r r' : Registration) : Prop := ¬Name.Alike r.name.render r'.name.render

theorem Registration.apart_of_lead? {r r' : Registration} {c d : Char}
    (hr : r.name.lead? = some c) (hr' : r'.name.lead? = some d) (different : c ≠ d) : r.Apart r' :=
  ObjectName.not_alike_of_lead? hr hr' different

theorem Automaton.pairwise_states {a : Automaton} {R : String → String → Prop} :
    a.states.Pairwise R ↔ ∀ i j, i < j → j < a.size → R (a.stateName i) (a.stateName j) := by
  have name {k : Nat} (bound : k < a.states.length) : a.states[k] = a.stateName k := by
    simp [stateName, stateName?, List.getElem?_eq_getElem bound]
  rw [List.pairwise_iff_getElem]
  constructor
  · intro apart i j before bound
    rw [← name (Nat.lt_trans before bound), ← name bound]
    exact apart i j _ bound before
  · intro apart i j within bound before
    rw [name within, name bound]
    exact apart i j before bound

namespace Encoding

open Name (Alike)

variable {strategy : Strategy} {options : Options} {trace : Automaton}
  {constraints : List Constraint}

theorem nodup_activities : (activities trace constraints).Nodup := by
  unfold activities distinct
  exact List.foldlRecOn _ _ List.nodup_nil fun _ nodup symbol _ => nodup_appendNew nodup symbol

/-- The ways in which objects clash. Two objects of different kinds do so only if one of them is
an activity. -/
inductive Clashing (trace : Automaton) (constraints : List Constraint) : Strategy → Prop
  | traceStates {strategy i j} (before : i < j) (bound : j < trace.size)
      (alike : Alike (trace.stateName i) (trace.stateName j)) :
      Clashing trace constraints strategy
  | symbols {strategy x y} (hx : x ∈ activities trace constraints)
      (hy : y ∈ activities trace constraints) (different : x ≠ y) (alike : Alike x y) :
      Clashing trace constraints strategy
  | activityTraceState {strategy x k} (known : x ∈ activities trace constraints)
      (bound : k < trace.size) (alike : Alike x (trace.traceObject k)) :
      Clashing trace constraints strategy
  | constraintStates {c d j k} (hc : c ∈ constraints) (hd : d ∈ constraints)
      (different : (c, j) ≠ (d, k)) (hj : j < c.automaton.size) (hk : k < d.automaton.size)
      (ids : Alike c.id.text d.id.text)
      (alike : Alike (c.automaton.stateName j) (d.automaton.stateName k)) :
      Clashing trace constraints .replicated
  | jointStates {c d} (hc : c ∈ constraints) (hd : d ∈ constraints) (different : c ≠ d)
      (several : 2 ≤ c.automaton.accepting.length) (several' : 2 ≤ d.automaton.accepting.length)
      (ids : Alike c.id.text d.id.text) : Clashing trace constraints .replicated
  | activityState {x c k} (known : x ∈ activities trace constraints) (hc : c ∈ constraints)
      (bound : k < c.automaton.size) (alike : Alike x (Replicated.stateObject c k)) :
      Clashing trace constraints .replicated
  | activityJointState {x c} (known : x ∈ activities trace constraints) (hc : c ∈ constraints)
      (several : 2 ≤ c.automaton.accepting.length)
      (alike : Alike x (Replicated.jointObject c)) : Clashing trace constraints .replicated
  | activityDummy {x} (known : x ∈ activities trace constraints) (alike : Alike x dummyName) :
      Clashing trace constraints .replicated
  | automata {c d} (hc : c ∈ constraints) (hd : d ∈ constraints) (different : c ≠ d)
      (ids : Alike c.id.text d.id.text) : Clashing trace constraints .shared
  | activityAutomaton {x c} (known : x ∈ activities trace constraints) (hc : c ∈ constraints)
      (alike : Alike x (Shared.automatonObject c)) : Clashing trace constraints .shared
  | activityPooledState {x c k} (known : x ∈ activities trace constraints) (hc : c ∈ constraints)
      (bound : k < c.automaton.size) (alike : Alike x (Shared.pooled k)) :
      Clashing trace constraints .shared

theorem pairwise_traceRegistrations : (traceRegistrations trace).Pairwise Registration.Apart ↔
    ∀ i j, i < j → j < trace.size → ¬Alike (trace.stateName i) (trace.stateName j) := by
  rw [traceRegistrations, List.pairwise_map]
  simp only [Registration.Apart, ObjectName.alike_traceState]
  exact Automaton.pairwise_states

theorem pairwise_activityRegistrations {type : String} :
    (activityRegistrations trace constraints type).Pairwise Registration.Apart ↔
      ∀ x ∈ activities trace constraints, ∀ y ∈ activities trace constraints, x ≠ y →
        ¬Alike x y := by
  have symm : Std.Symm fun x y : String => ¬Alike x y := ⟨fun _ _ apart alike => apart alike.symm⟩
  rw [activityRegistrations, List.pairwise_map]
  change (activities trace constraints).Pairwise (fun x y => ¬Alike x y) ↔ _
  constructor
  · intro apart x hx y hy different
    exact apart.forall hx hy different
  · intro apart
    exact nodup_activities.imp_of_mem fun hx hy different => apart _ hx _ hy different

theorem mem_traceRegistrations {r : Registration} : r ∈ traceRegistrations trace ↔
    ∃ k < trace.size, r = ⟨.traceState (trace.stateName k), traceStateType, trace.name⟩ := by
  simp only [traceRegistrations, List.mem_map, Automaton.mem_states]
  constructor
  · rintro ⟨_, ⟨k, bound, rfl⟩, rfl⟩
    exact ⟨k, bound, rfl⟩
  · rintro ⟨k, bound, rfl⟩
    exact ⟨_, ⟨k, bound, rfl⟩, rfl⟩

theorem lead?_of_mem_traceRegistrations {r : Registration} (state : r ∈ traceRegistrations trace) :
    r.name.lead? = some 't' := by
  obtain ⟨_, _, rfl⟩ := mem_traceRegistrations.mp state
  rfl

theorem mem_activityRegistrations {r : Registration} {type : String} :
    r ∈ activityRegistrations trace constraints type ↔
      ∃ x ∈ activities trace constraints, r = ⟨.activity x, type, trace.name⟩ := by
  simp [activityRegistrations, eq_comm]

namespace Replicated

variable {c d : Constraint}

theorem mem_constraintRegistrations {r : Registration} : r ∈ constraintRegistrations c ↔
    (∃ k < c.automaton.size,
      r = ⟨.automatonState c.id (c.automaton.stateName k), automatonStateType, c.id.text⟩) ∨
    2 ≤ c.automaton.accepting.length ∧
      r = ⟨.jointAccept c.id, automatonStateType, c.id.text⟩ := by
  rw [← needsJoint_iff]
  simp only [constraintRegistrations, List.mem_append, List.mem_map, Automaton.mem_states]
  constructor
  · rintro (⟨_, ⟨k, bound, rfl⟩, rfl⟩ | joint)
    · exact .inl ⟨k, bound, rfl⟩
    · split at joint
      next several => exact .inr ⟨several, List.mem_singleton.mp joint⟩
      next => simp at joint
  · rintro (⟨k, bound, rfl⟩ | ⟨several, rfl⟩)
    · exact .inl ⟨_, ⟨k, bound, rfl⟩, rfl⟩
    · exact .inr (by simp [several])

theorem pairwise_constraintRegistrations :
    (constraintRegistrations c).Pairwise Registration.Apart ↔
      ∀ j k, j < k → k < c.automaton.size →
        ¬Alike (c.automaton.stateName j) (c.automaton.stateName k) := by
  have alike {a b : String} : Registration.Apart
      ⟨.automatonState c.id a, automatonStateType, c.id.text⟩
      ⟨.automatonState c.id b, automatonStateType, c.id.text⟩ ↔ ¬Alike a b :=
    not_congr (ObjectName.alike_automatonState.trans ⟨And.right, fun names => ⟨rfl, names⟩⟩)
  rw [constraintRegistrations, List.pairwise_append, List.pairwise_map]
  simp only [alike]
  rw [Automaton.pairwise_states]
  constructor
  · exact fun apart => apart.1
  · intro apart
    refine ⟨apart, by split <;> simp, ?_⟩
    intro r state r' joint
    obtain ⟨_, _, rfl⟩ := List.mem_map.mp state
    split at joint
    · rw [List.mem_singleton.mp joint]
      exact Registration.apart_of_lead? rfl rfl (by decide)
    · simp at joint

/-- Constraints whose objects are told apart, by their ids or else by the names of the states. -/
def Separate (c d : Constraint) : Prop := Alike c.id.text d.id.text →
  (∀ j < c.automaton.size, ∀ k < d.automaton.size,
    ¬Alike (c.automaton.stateName j) (d.automaton.stateName k)) ∧
  (2 ≤ c.automaton.accepting.length → ¬2 ≤ d.automaton.accepting.length)

instance : Std.Symm Separate where
  symm c d apart ids := by
    obtain ⟨states, joints⟩ := apart ids.symm
    exact ⟨fun j hj k hk alike => states k hk j hj alike.symm,
      fun several several' => joints several' several⟩

theorem apart_constraintRegistrations :
    (∀ r ∈ constraintRegistrations c, ∀ r' ∈ constraintRegistrations d, r.Apart r') ↔
      Separate c d := by
  constructor
  · intro apart ids
    constructor
    · intro j hj k hk names
      exact apart _ (mem_constraintRegistrations.mpr (.inl ⟨j, hj, rfl⟩)) _
        (mem_constraintRegistrations.mpr (.inl ⟨k, hk, rfl⟩))
        (ObjectName.alike_automatonState.mpr ⟨ids, names⟩)
    · intro several several'
      exact apart _ (mem_constraintRegistrations.mpr (.inr ⟨several, rfl⟩)) _
        (mem_constraintRegistrations.mpr (.inr ⟨several', rfl⟩))
        (ObjectName.alike_jointAccept.mpr ids)
  · intro apart r hr r' hr'
    rcases mem_constraintRegistrations.mp hr with ⟨j, hj, rfl⟩ | ⟨several, rfl⟩ <;>
      rcases mem_constraintRegistrations.mp hr' with ⟨k, hk, rfl⟩ | ⟨several', rfl⟩
    · intro alike
      obtain ⟨ids, names⟩ := ObjectName.alike_automatonState.mp alike
      exact (apart ids).1 j hj k hk names
    · exact Registration.apart_of_lead? rfl rfl (by decide)
    · exact Registration.apart_of_lead? rfl rfl (by decide)
    · intro alike
      exact (apart (ObjectName.alike_jointAccept.mp alike)).2 several several'

/-- Objects with letters of their own are never in each other's way. -/
theorem apart_traceRegistrations : ∀ r ∈ traceRegistrations trace,
    ∀ r' ∈ constraints.flatMap constraintRegistrations, r.Apart r' := by
  intro r state r' object
  have lead := lead?_of_mem_traceRegistrations state
  obtain ⟨c, _, own⟩ := List.mem_flatMap.mp object
  rcases mem_constraintRegistrations.mp own with ⟨_, _, rfl⟩ | ⟨_, rfl⟩ <;>
    exact Registration.apart_of_lead? lead rfl (by decide)

theorem not_clashing_of_pairwise
    (apart : (registrations trace constraints).Pairwise Registration.Apart) :
    ¬Clashing trace constraints .replicated := by
  simp only [registrations, List.pairwise_append, List.pairwise_flatMap,
    pairwise_traceRegistrations, pairwise_activityRegistrations, pairwise_constraintRegistrations,
    apart_constraintRegistrations, List.mem_append, List.mem_flatMap, List.mem_singleton] at apart
  obtain ⟨⟨⟨traceStates, ⟨own, others⟩, -⟩, symbols, mixed⟩, -, dummies⟩ := apart
  intro clash
  cases clash with
  | traceStates before bound alike => exact traceStates _ _ before bound alike
  | symbols hx hy different alike => exact symbols _ hx _ hy different alike
  | activityTraceState known bound alike =>
    exact mixed _ (.inl (mem_traceRegistrations.mpr ⟨_, bound, rfl⟩)) _
      (mem_activityRegistrations.mpr ⟨_, known, rfl⟩) alike.symm
  | @constraintStates c d j k hc hd different hj hk ids alike =>
    by_cases same : c = d
    · subst same
      rcases Nat.lt_trichotomy j k with before | rfl | after
      · exact own c hc j k before hk alike
      · exact different rfl
      · exact own c hc k j after hj alike.symm
    · exact ((others.forall hc hd same) ids).1 j hj k hk alike
  | jointStates hc hd different several several' ids =>
    exact ((others.forall hc hd different) ids).2 several several'
  | activityState known hc bound alike =>
    exact mixed _ (.inr ⟨_, hc, mem_constraintRegistrations.mpr (.inl ⟨_, bound, rfl⟩)⟩) _
      (mem_activityRegistrations.mpr ⟨_, known, rfl⟩) alike.symm
  | activityJointState known hc several alike =>
    exact mixed _ (.inr ⟨_, hc, mem_constraintRegistrations.mpr (.inr ⟨several, rfl⟩)⟩) _
      (mem_activityRegistrations.mpr ⟨_, known, rfl⟩) alike.symm
  | activityDummy known alike =>
    exact dummies _ (.inr (mem_activityRegistrations.mpr ⟨_, known, rfl⟩)) _ rfl alike

theorem pairwise_of_not_clashing (distinct : constraints.Pairwise fun c d => c.id ≠ d.id)
    (free : ¬Clashing trace constraints .replicated) :
    (registrations trace constraints).Pairwise Registration.Apart := by
  have others : constraints.Pairwise Separate := by
    refine distinct.imp_of_mem fun {c d} hc hd different ids => ⟨?_, ?_⟩
    · intro j hj k hk alike
      refine free (.constraintStates hc hd ?_ hj hk ids alike)
      rintro ⟨⟩
      exact different rfl
    · intro several several'
      exact free (.jointStates hc hd (fun same => different (same ▸ rfl)) several several' ids)
  simp only [registrations, List.pairwise_append, List.pairwise_flatMap,
    pairwise_traceRegistrations, pairwise_activityRegistrations, pairwise_constraintRegistrations,
    apart_constraintRegistrations, List.mem_append, List.mem_singleton]
  refine ⟨⟨⟨?_, ⟨?_, others⟩, apart_traceRegistrations⟩, ?_, ?_⟩, List.pairwise_singleton _ _, ?_⟩
  · exact fun i j before bound alike => free (.traceStates before bound alike)
  · intro c hc j k before bound alike
    refine free (.constraintStates hc hc ?_ (Nat.lt_trans before bound) bound rfl alike)
    exact fun same => Nat.ne_of_lt before (congrArg Prod.snd same)
  · exact fun x hx y hy different alike => free (.symbols hx hy different alike)
  · rintro r (state | object) r' activity alike <;>
      obtain ⟨x, known, rfl⟩ := mem_activityRegistrations.mp activity
    · obtain ⟨k, bound, rfl⟩ := mem_traceRegistrations.mp state
      exact free (.activityTraceState known bound (Alike.symm alike))
    · obtain ⟨c, hc, own⟩ := List.mem_flatMap.mp object
      rcases mem_constraintRegistrations.mp own with ⟨k, bound, rfl⟩ | ⟨several, rfl⟩
      · exact free (.activityState known hc bound (Alike.symm alike))
      · exact free (.activityJointState known hc several (Alike.symm alike))
  · rintro r ((state | object) | activity) _ rfl alike
    · have lead := lead?_of_mem_traceRegistrations state
      exact Registration.apart_of_lead? lead rfl (by decide) alike
    · obtain ⟨c, hc, own⟩ := List.mem_flatMap.mp object
      rcases mem_constraintRegistrations.mp own with ⟨_, _, rfl⟩ | ⟨_, rfl⟩ <;>
        exact Registration.apart_of_lead? rfl rfl (by decide) alike
    · obtain ⟨x, known, rfl⟩ := mem_activityRegistrations.mp activity
      exact free (.activityDummy known alike)

end Replicated

namespace Shared

/-- Constraints are told apart by their ids. -/
theorem pairwise_automata (distinct : constraints.Pairwise fun c d => c.id ≠ d.id) :
    (constraints.map fun c =>
      (⟨.automaton c.id, automatonType, c.id.text⟩ : Registration)).Pairwise Registration.Apart ↔
        ∀ c ∈ constraints, ∀ d ∈ constraints, c ≠ d → ¬Alike c.id.text d.id.text := by
  have symm : Std.Symm fun c d : Constraint => ¬Alike c.id.text d.id.text :=
    ⟨fun _ _ apart alike => apart alike.symm⟩
  rw [List.pairwise_map]
  simp only [Registration.Apart, ObjectName.alike_automaton]
  constructor
  · exact fun apart c hc d hd different => apart.forall hc hd different
  · intro apart
    exact distinct.imp_of_mem fun hc hd different =>
      apart _ hc _ hd fun same => different (same ▸ rfl)

theorem pairwise_pool : ((List.range (poolSize constraints)).map fun index =>
    (⟨.pooledState index, automatonStateType, trace.name⟩ : Registration)).Pairwise
      Registration.Apart := by
  rw [List.pairwise_map]
  exact List.nodup_range.imp fun different alike =>
    different (ObjectName.alike_pooledState.mp alike)

theorem pairwise_registrations (distinct : constraints.Pairwise fun c d => c.id ≠ d.id) :
    (registrations trace constraints).Pairwise Registration.Apart ↔
      ¬Clashing trace constraints .shared := by
  simp only [registrations, List.pairwise_append, pairwise_automata distinct, pairwise_pool,
    pairwise_traceRegistrations, pairwise_activityRegistrations, List.mem_append, List.mem_map,
    List.mem_range]
  constructor
  · rintro ⟨⟨⟨automata, traceStates, -⟩, -⟩, symbols, mixed⟩ clash
    cases clash with
    | traceStates before bound alike => exact traceStates _ _ before bound alike
    | symbols hx hy different alike => exact symbols _ hx _ hy different alike
    | activityTraceState known bound alike =>
      exact mixed _ (.inl (.inr (mem_traceRegistrations.mpr ⟨_, bound, rfl⟩))) _
        (mem_activityRegistrations.mpr ⟨_, known, rfl⟩) alike.symm
    | automata hc hd different ids => exact automata _ hc _ hd different ids
    | activityAutomaton known hc alike =>
      exact mixed _ (.inl (.inl ⟨_, hc, rfl⟩)) _
        (mem_activityRegistrations.mpr ⟨_, known, rfl⟩) alike.symm
    | activityPooledState known hc bound alike =>
      exact mixed _ (.inr ⟨_, lt_poolSize.mpr ⟨_, hc, bound⟩, rfl⟩) _
        (mem_activityRegistrations.mpr ⟨_, known, rfl⟩) alike.symm
  · intro free
    refine ⟨⟨⟨?_, ?_, ?_⟩, trivial, ?_⟩, ?_, ?_⟩
    · exact fun c hc d hd different ids => free (.automata hc hd different ids)
    · exact fun i j before bound alike => free (.traceStates before bound alike)
    · rintro _ ⟨c, _, rfl⟩ r state
      have lead := lead?_of_mem_traceRegistrations state
      exact Registration.apart_of_lead? rfl lead (by decide)
    · rintro r (⟨c, _, rfl⟩ | state) _ ⟨k, _, rfl⟩
      · exact Registration.apart_of_lead? rfl rfl (by decide)
      · have lead := lead?_of_mem_traceRegistrations state
        exact Registration.apart_of_lead? lead rfl (by decide)
    · exact fun x hx y hy different alike => free (.symbols hx hy different alike)
    · rintro r ((⟨c, hc, rfl⟩ | state) | ⟨k, bound, rfl⟩) r' activity alike <;>
        obtain ⟨x, known, rfl⟩ := mem_activityRegistrations.mp activity
      · exact free (.activityAutomaton known hc (Alike.symm alike))
      · obtain ⟨k, bound, rfl⟩ := mem_traceRegistrations.mp state
        exact free (.activityTraceState known bound (Alike.symm alike))
      · obtain ⟨c, hc, bound⟩ := lt_poolSize.mp bound
        exact free (.activityPooledState known hc bound (Alike.symm alike))

end Shared

/-- More constraints leave all clashes in place. -/
theorem Clashing.mono {others : List Constraint} (within : ∀ c ∈ constraints, c ∈ others)
    (clash : Clashing trace constraints strategy) : Clashing trace others strategy := by
  have more {x : String} (known : x ∈ activities trace constraints) :
      x ∈ activities trace others := by
    rcases mem_activities.mp known with own | ⟨c, hc, declared⟩
    · exact mem_activities.mpr (.inl own)
    · exact mem_activities.mpr (.inr ⟨c, within c hc, declared⟩)
  cases clash with
  | traceStates before bound alike => exact .traceStates before bound alike
  | symbols hx hy different alike => exact .symbols (more hx) (more hy) different alike
  | activityTraceState known bound alike => exact .activityTraceState (more known) bound alike
  | constraintStates hc hd different hj hk ids alike =>
    exact .constraintStates (within _ hc) (within _ hd) different hj hk ids alike
  | jointStates hc hd different several several' ids =>
    exact .jointStates (within _ hc) (within _ hd) different several several' ids
  | activityState known hc bound alike =>
    exact .activityState (more known) (within _ hc) bound alike
  | activityJointState known hc several alike =>
    exact .activityJointState (more known) (within _ hc) several alike
  | activityDummy known alike => exact .activityDummy (more known) alike
  | automata hc hd different ids => exact .automata (within _ hc) (within _ hd) different ids
  | activityAutomaton known hc alike => exact .activityAutomaton (more known) (within _ hc) alike
  | activityPooledState known hc bound alike =>
    exact .activityPooledState (more known) (within _ hc) bound alike

/-- The table takes all objects exactly if none of them clash. -/
theorem nodup_keys_iff (valid : inputFault? trace constraints = none) :
    ((strategy.registrations trace (canonicalOrder constraints)).map fun r =>
      Name.caseless r.name.render).Nodup ↔ ¬Clashing trace constraints strategy := by
  obtain ⟨_, _, distinct⟩ := inputFault?_eq_none.mp valid
  have ordered : (canonicalOrder constraints).Pairwise fun c d => c.id ≠ d.id :=
    (List.mergeSort_perm _ _).symm.pairwise distinct fun apart => apart.symm
  have same : Clashing trace (canonicalOrder constraints) strategy ↔
      Clashing trace constraints strategy :=
    ⟨Clashing.mono fun _ => mem_canonicalOrder.mp, Clashing.mono fun _ => mem_canonicalOrder.mpr⟩
  rw [List.nodup_iff_pairwise_ne, List.pairwise_map, ← same]
  cases strategy with
  | replicated =>
    exact ⟨Replicated.not_clashing_of_pairwise, Replicated.pairwise_of_not_clashing ordered⟩
  | shared => exact Shared.pairwise_registrations ordered

/-- Valid inputs are encoded unless two of their objects clash, and then a clash is reported. Only
the shared encoding needs a constraint. -/
theorem encodes_unless_clashing (valid : inputFault? trace constraints = none) :
    (strategy = .shared ∧ constraints = [] →
      Encoding.of strategy options trace constraints = .error ⟨trace.name, .noConstraint⟩) ∧
    (¬(strategy = .shared ∧ constraints = []) →
      ((∃ e, Encoding.of strategy options trace constraints = .ok e) ↔
        ¬Clashing trace constraints strategy) ∧
      ((∃ automaton name, Encoding.of strategy options trace constraints =
        .error ⟨automaton, .collision name⟩) ↔ Clashing trace constraints strategy)) := by
  have needed : strategy.needsConstraint = true ↔ strategy = .shared := by
    cases strategy <;> simp [Strategy.needsConstraint]
  constructor
  · rintro ⟨shared, none⟩
    exact (of_eq_error valid).mpr (.inl ⟨needed.mpr shared, none, rfl⟩)
  · intro enough
    have enough : strategy.needsConstraint = true → constraints ≠ [] :=
      fun shared none => enough ⟨needed.mp shared, none⟩
    have made : (∃ e, Encoding.of strategy options trace constraints = .ok e) ↔
        ¬Clashing trace constraints strategy := by
      rw [← nodup_keys_iff valid]
      constructor
      · rintro ⟨e, made⟩
        exact (of_eq_ok.mp made).2.2.1
      · exact fun distinct => ⟨_, of_eq_ok.mpr ⟨valid, enough, distinct, rfl⟩⟩
    refine ⟨made, ?_, ?_⟩
    · rintro ⟨automaton, name, failed⟩
      by_contra free
      obtain ⟨e, made⟩ := made.mpr free
      rw [failed] at made
      cases made
    · intro clash
      cases result : Encoding.of strategy options trace constraints with
      | ok e => exact absurd clash (made.mp ⟨e, result⟩)
      | error fault =>
        rcases (of_eq_error valid).mp result with ⟨shared, none, _⟩ | ⟨_, found, _, rfl⟩
        · exact absurd none (enough shared)
        · exact ⟨_, _, rfl⟩

end Encoding

/-- A trace with an activity that is called like the joint state of a constraint. -/
def Sample.usurper : Automaton :=
  ⟨"trace", ["0", "1"], ["GS_1"], some 0, [1], [⟨0, "GS_1", 1⟩], none, []⟩

namespace Encoding

/-- The letter case does not save the trace, and without constraints there is no pool. -/
theorem encodes_unless_clashing_sample :
    inputFault? Sample.usurper [Sample.absence] = none ∧
    inputFault? Sample.usurper [] = none ∧
    (∃ automaton name, Encoding.of .replicated ⟨.unconstrained, .free, false⟩ Sample.usurper
      [Sample.absence] = .error ⟨automaton, .collision name⟩) ∧
    Encoding.of .shared ⟨.unconstrained, .free, false⟩ Sample.usurper [] =
      .error ⟨"trace", .noConstraint⟩ := by
  have valid : inputFault? Sample.usurper [Sample.absence] = none := by decide +kernel
  have alone : inputFault? Sample.usurper [] = none := by decide +kernel
  have alike : Name.Alike "GS_1" (Replicated.jointObject Sample.absence) := by
    rw [Name.alike_iff]
    decide +kernel
  have clash : Clashing Sample.usurper [Sample.absence] .replicated :=
    .activityJointState (mem_activities.mpr (.inl List.mem_cons_self)) List.mem_cons_self
      (by decide) alike
  refine ⟨valid, alone, ?_, ?_⟩
  · exact ((encodes_unless_clashing valid).2 (by decide)).2.mpr clash
  · exact (encodes_unless_clashing alone).1 ⟨rfl, rfl⟩

end Encoding

end AlignPlan
