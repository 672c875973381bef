import AlignPlan.Proofs.Encoding.ObjectClashes

/-! Who is blamed for a clash. States, joint states and constraints are charged to the automaton
that their objects come from, but activities are charged to the trace, whichever automaton brings
them in. A clash is reported of an automaton that has an object of the name, unless the trace is
blamed for an activity that only constraints have. -/
namespace AlignPlan

namespace Encoding

open Name (Alike)

/-- The objects that a trace brings in. -/
def traceObjects (trace : Automaton) : List ObjectName :=
  trace.states.map .traceState ++ trace.alphabet.map .activity

/-- The objects that a constraint brings in, those that it shares with others included. -/
def constraintObjects (strategy : Strategy) (c : Constraint) : List ObjectName :=
  c.automaton.alphabet.map .activity ++
  match strategy with
  | .replicated => c.automaton.states.map (.automatonState c.id) ++
      if Replicated.needsJoint c then [.jointAccept c.id] else []
  | .shared => .automaton c.id :: (List.range c.automaton.size).map .pooledState

def Introduces (objects : List ObjectName) (name : String) : Prop :=
  ∃ o ∈ objects, Alike o.render name

/-- An automaton that is called so brings in an object of that name. -/
def Owned (strategy : Strategy) (trace : Automaton) (constraints : List Constraint)
    (automaton name : String) : Prop :=
  (automaton = trace.name ∧ Introduces (traceObjects trace) name) ∨
  ∃ c ∈ constraints, automaton = c.id.text ∧ Introduces (constraintObjects strategy c) name

/-- A constraint brings an activity in, and the trace is blamed, which has nothing of that name. Nor
has a constraint that is called like the trace. -/
structure Misplaced (strategy : Strategy) (trace : Automaton) (constraints : List Constraint)
    (automaton name : String) : Prop where
  charged : automaton = trace.name
  foreign : ¬Introduces (traceObjects trace) name
  activity : ∃ c ∈ constraints, ∃ symbol ∈ c.automaton.alphabet, Alike symbol name
  namesakes : ∀ c ∈ constraints, automaton = c.id.text →
    ¬Introduces (constraintObjects strategy c) name

variable {strategy : Strategy} {options : Options} {trace : Automaton}
  {constraints : List Constraint} {automaton name : String} {r : Registration}

/-- The blame for an object is on an owner, or else it is misplaced. -/
def Settled (strategy : Strategy) (trace : Automaton) (constraints : List Constraint)
    (r : Registration) : Prop :=
  Owned strategy trace constraints r.owner r.name.render ∨
    Misplaced strategy trace constraints r.owner r.name.render

theorem owned_trace {o : ObjectName} (own : o ∈ traceObjects trace) (alike : Alike o.render name) :
    Owned strategy trace constraints trace.name name := .inl ⟨rfl, o, own, alike⟩

theorem owned_constraint {c : Constraint} {o : ObjectName} (member : c ∈ constraints)
    (own : o ∈ constraintObjects strategy c) (alike : Alike o.render name) :
    Owned strategy trace constraints c.id.text name := .inr ⟨c, member, rfl, o, own, alike⟩

theorem settled_of_activity {symbol : String} (known : symbol ∈ activities trace constraints)
    (charged : r.owner = trace.name) (alike : Alike symbol r.name.render) :
    Settled strategy trace constraints r := by
  by_cases owned : Owned strategy trace constraints r.owner r.name.render
  · exact .inl owned
  · have foreign : ¬Introduces (traceObjects trace) r.name.render :=
      fun own => owned (.inl ⟨charged, own⟩)
    refine .inr ⟨charged, foreign, ?_, fun c member same own => owned (.inr ⟨c, member, same, own⟩)⟩
    rcases mem_activities.mp known with own | ⟨c, member, declared⟩
    · exact absurd ⟨.activity symbol, by simp [traceObjects, own], alike⟩ foreign
    · exact ⟨c, member, symbol, declared, alike⟩

theorem settled_traceRegistrations (state : r ∈ traceRegistrations trace) :
    Settled strategy trace constraints r := by
  obtain ⟨name, listed, rfl⟩ := List.mem_map.mp state
  have object : .traceState name ∈ traceObjects trace := by simp [traceObjects, listed]
  exact .inl (owned_trace object rfl)

theorem settled_activityRegistrations {type : String}
    (activity : r ∈ activityRegistrations trace constraints type) :
    Settled strategy trace constraints r := by
  obtain ⟨symbol, known, rfl⟩ := mem_activityRegistrations.mp activity
  exact settled_of_activity known rfl rfl

theorem Replicated.settled_constraintRegistrations {c : Constraint} (member : c ∈ constraints)
    (own : r ∈ constraintRegistrations c) : Settled .replicated trace constraints r := by
  rcases mem_constraintRegistrations.mp own with ⟨k, bound, rfl⟩ | ⟨several, rfl⟩
  · have state : c.automaton.stateName k ∈ c.automaton.states :=
      Automaton.mem_states.mpr ⟨k, bound, rfl⟩
    have object : .automatonState c.id (c.automaton.stateName k) ∈
        constraintObjects .replicated c := by simp [constraintObjects, state]
    exact .inl (owned_constraint member object rfl)
  · have object : .jointAccept c.id ∈ constraintObjects .replicated c := by
      simp [constraintObjects, needsJoint_iff.mpr several]
    exact .inl (owned_constraint member object rfl)

/-- The dummy activity clashes with activities only, and they are charged to the trace as it is. -/
theorem Replicated.settled_of_alike : (registrations trace constraints).Pairwise fun r r' =>
    Alike r.name.render r'.name.render → Settled .replicated trace constraints r' := by
  have others : ∀ r ∈ traceRegistrations trace ++ constraints.flatMap constraintRegistrations ++
      activityRegistrations trace constraints actType, Settled .replicated trace constraints r := by
    simp only [List.mem_append, List.mem_flatMap]
    rintro r ((state | ⟨c, member, own⟩) | activity)
    · exact settled_traceRegistrations state
    · exact settled_constraintRegistrations member own
    · exact settled_activityRegistrations activity
  rw [registrations, List.pairwise_append]
  refine ⟨List.pairwise_of_forall_mem_list fun _ _ r' listed _ => others r' listed,
    List.pairwise_singleton _ _, ?_⟩
  simp only [List.mem_append, List.mem_flatMap, List.mem_singleton]
  rintro r ((state | ⟨c, _, own⟩) | activity) _ rfl alike
  · have lead := lead?_of_mem_traceRegistrations state
    exact absurd alike (Registration.apart_of_lead? lead rfl (by decide))
  · rcases mem_constraintRegistrations.mp own with ⟨_, _, rfl⟩ | ⟨_, rfl⟩ <;>
      exact absurd alike (Registration.apart_of_lead? rfl rfl (by decide))
  · obtain ⟨symbol, known, rfl⟩ := mem_activityRegistrations.mp activity
    exact settled_of_activity known rfl alike

/-- No object before those of the pool is called like one of them. -/
theorem Shared.settled_of_alike : (registrations trace constraints).Pairwise fun r r' =>
    Alike r.name.render r'.name.render → Settled .shared trace constraints r' := by
  have others : ∀ r ∈ (constraints.map fun c => ⟨.automaton c.id, automatonType, c.id.text⟩) ++
      traceRegistrations trace, Settled .shared trace constraints r := by
    simp only [List.mem_append, List.mem_map]
    rintro r (⟨c, member, rfl⟩ | state)
    · have object : .automaton c.id ∈ constraintObjects .shared c := by simp [constraintObjects]
      exact .inl (owned_constraint member object rfl)
    · exact settled_traceRegistrations state
  rw [registrations, List.pairwise_append, List.pairwise_append]
  refine ⟨⟨List.pairwise_of_forall_mem_list fun _ _ r' listed _ => others r' listed,
    pairwise_pool.imp fun apart alike => absurd alike apart, ?_⟩,
    List.pairwise_of_forall_mem_list fun _ _ _ listed _ => settled_activityRegistrations listed,
    fun _ _ _ listed _ => settled_activityRegistrations listed⟩
  simp only [List.mem_append, List.mem_map]
  rintro r (⟨c, _, rfl⟩ | state) _ ⟨k, _, rfl⟩ alike
  · exact absurd alike (Registration.apart_of_lead? rfl rfl (by decide))
  · have lead := lead?_of_mem_traceRegistrations state
    exact absurd alike (Registration.apart_of_lead? lead rfl (by decide))

/-- The clash that ends a registration is settled. -/
theorem settled_of_register_eq_error {clash : Clash}
    (failed : ObjectTable.empty.addAll (strategy.registrations trace constraints) = .error clash) :
    Owned strategy trace constraints clash.newcomer.owner clash.newcomer.name ∨
      Misplaced strategy trace constraints clash.newcomer.owner clash.newcomer.name := by
  have settled : (strategy.registrations trace constraints).Pairwise fun r r' =>
      Alike r.name.render r'.name.render → Settled strategy trace constraints r' := by
    cases strategy with
    | replicated => exact Replicated.settled_of_alike
    | shared => exact Shared.settled_of_alike
  obtain ⟨before, r', after, order, newcomer, holder, alike⟩ :=
    ObjectTable.exists_of_addAll_eq_error failed
  obtain ⟨r, earlier, same⟩ := List.mem_map.mp holder
  rw [order, List.pairwise_append] at settled
  rw [newcomer, ← same] at alike
  rw [newcomer]
  exact settled.2.2 r earlier r' List.mem_cons_self alike

theorem owned_congr {others : List Constraint} (same : ∀ c, c ∈ others ↔ c ∈ constraints) :
    Owned strategy trace others automaton name ↔
      Owned strategy trace constraints automaton name := by
  simp only [Owned, same]

theorem misplaced_congr {others : List Constraint} (same : ∀ c, c ∈ others ↔ c ∈ constraints) :
    Misplaced strategy trace others automaton name ↔
      Misplaced strategy trace constraints automaton name := by
  constructor <;> rintro ⟨charged, foreign, activity, namesakes⟩
  · exact ⟨charged, foreign, by simpa only [same] using activity,
      by simpa only [same] using namesakes⟩
  · exact ⟨charged, foreign, by simpa only [same] using activity,
      by simpa only [same] using namesakes⟩

theorem Misplaced.not_owned (misplaced : Misplaced strategy trace constraints automaton name) :
    ¬Owned strategy trace constraints automaton name := by
  rintro (⟨_, own⟩ | ⟨c, member, same, own⟩)
  · exact misplaced.foreign own
  · exact misplaced.namesakes c member same own

/-- A single constraint is in order as it is. -/
theorem of_singleton_eq_error (options : Options) {c : Constraint} {clash : Clash}
    (valid : inputFault? trace [c] = none)
    (found : ObjectTable.empty.addAll (strategy.registrations trace [c]) = .error clash) :
    Encoding.of strategy options trace [c] = .error clash.fault := by
  have order : canonicalOrder [c] = [c] := List.mergeSort_singleton c
  refine (of_eq_error valid).mpr (.inr ⟨fun _ => List.cons_ne_nil c [], clash, ?_, rfl⟩)
  rw [register, order, found]

/-- A clash is reported of an automaton that has an object of the name, unless it is the trace and
only constraints have the activity. -/
theorem owned_iff_not_misplaced (valid : inputFault? trace constraints = none)
    (failed : Encoding.of strategy options trace constraints =
      .error ⟨automaton, .collision name⟩) :
    Owned strategy trace constraints automaton name ↔
      ¬Misplaced strategy trace constraints automaton name := by
  refine ⟨fun owned misplaced => misplaced.not_owned owned, fun placed => ?_⟩
  rcases (of_eq_error valid).mp failed with ⟨_, _, same⟩ | ⟨_, clash, found, same⟩
  · cases same
  · cases same
    rcases settled_of_register_eq_error found with owned | misplaced
    · exact (owned_congr fun _ => mem_canonicalOrder).mp owned
    · exact absurd ((misplaced_congr fun _ => mem_canonicalOrder).mp misplaced) placed

end Encoding

namespace Sample

/-- A constraint with an activity that is called like the constraint's own object. -/
def namesake : Constraint :=
  ⟨⟨"7", by decide, by decide⟩, ⟨"7", ["r0"], ["a7"], some 0, [0], [⟨0, "a7", 0⟩], none, []⟩⟩

/-- A trace with the activity of `namesake`. -/
def echo : Automaton :=
  ⟨"trace", ["0", "1"], ["a7"], some 0, [1], [⟨0, "a7", 1⟩], none, []⟩

end Sample

namespace Encoding

/-- The trace is blamed for its own activity. -/
theorem owned_iff_not_misplaced_sample :
    inputFault? Sample.echo [Sample.namesake] = none ∧
    Encoding.of .shared ⟨.unconstrained, .free, false⟩ Sample.echo [Sample.namesake] =
      .error ⟨"trace", .collision "a7"⟩ ∧
    ¬Misplaced .shared Sample.echo [Sample.namesake] "trace" "a7" := by
  have valid : inputFault? Sample.echo [Sample.namesake] = none := by decide +kernel
  have found : ObjectTable.empty.addAll
      (Strategy.shared.registrations Sample.echo [Sample.namesake]) =
        .error ⟨⟨"a7", "activity", "trace"⟩, ⟨"a7", "automaton", "7"⟩⟩ := by decide +kernel
  have failed := of_singleton_eq_error ⟨.unconstrained, .free, false⟩ valid found
  have owned : Owned .shared Sample.echo [Sample.namesake] "trace" "a7" :=
    .inl ⟨rfl, .activity "a7", by simp [traceObjects, Sample.echo], rfl⟩
  exact ⟨valid, failed, (owned_iff_not_misplaced valid failed).mp owned⟩

/-- The trace is blamed for an activity that only a constraint has. -/
theorem exists_misplaced_blame : ¬∀ (strategy : Strategy) (options : Options) (trace : Automaton)
    (constraints : List Constraint) (automaton name : String),
    inputFault? trace constraints = none →
    Encoding.of strategy options trace constraints = .error ⟨automaton, .collision name⟩ →
    Owned strategy trace constraints automaton name := by
  intro blamed
  have valid : inputFault? Sample.trace [Sample.namesake] = none := by decide +kernel
  have found : ObjectTable.empty.addAll
      (Strategy.shared.registrations Sample.trace [Sample.namesake]) =
        .error ⟨⟨"a7", "activity", "trace"⟩, ⟨"a7", "automaton", "7"⟩⟩ := by decide +kernel
  have failed := of_singleton_eq_error ⟨.unconstrained, .free, false⟩ valid found
  rcases blamed _ _ _ _ _ _ valid failed with ⟨_, object, own, alike⟩ | ⟨c, member, same, _⟩
  · have others : ∀ o ∈ traceObjects Sample.trace, ¬Name.Alike o.render "a7" := by
      simp only [Name.alike_iff]
      decide +kernel
    exact others object own alike
  · rw [List.mem_singleton.mp member] at same
    exact absurd same (by decide)

end Encoding

end AlignPlan
