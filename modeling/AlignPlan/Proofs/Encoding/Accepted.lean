import AlignPlan.Encoding
import AlignPlan.Proofs.Lists
import AlignPlan.Proofs.Objects.Table
import AlignPlan.Proofs.Validation.WellFormed

/-! When an encoding exists: its automata are well formed and no two of its objects have names
that differ in letter case at most. -/
namespace AlignPlan

namespace Encoding

variable {strategy : Strategy} {options : Options} {trace : Automaton}
  {constraints : List Constraint} {e : Encoding}

/-- The names of all objects of an encoding, in order. -/
def names (e : Encoding) : List String :=
  (e.strategy.registrations e.trace e.constraints).map fun r => r.name.render

theorem of_eq_ok : Encoding.of strategy options trace constraints = .ok e ↔
    inputFault? trace constraints = none ∧
    (strategy.needsConstraint = true → constraints ≠ []) ∧
    ((strategy.registrations trace (canonicalOrder constraints)).map fun r =>
      Name.caseless r.name.render).Nodup ∧
    e = ⟨strategy, options, trace, canonicalOrder constraints,
      ⟨(strategy.registrations trace (canonicalOrder constraints)).map Registration.entry⟩⟩ := by
  unfold Encoding.of
  cases fault : inputFault? trace constraints with
  | some fault => simp
  | none =>
    have registered (table : ObjectTable) : ObjectTable.empty.addAll
        (strategy.registrations trace (canonicalOrder constraints)) = .ok table ↔ _ :=
      ObjectTable.addAll_eq_ok List.nodup_nil
    simp only [ObjectTable.empty, ObjectTable.keys, List.map_nil, List.nil_append] at registered
    have needed : (strategy.needsConstraint && constraints.isEmpty) = false ↔
        (strategy.needsConstraint = true → constraints ≠ []) := by
      cases strategy.needsConstraint <;> simp
    simp only [true_and, ← needed]
    cases lacking : strategy.needsConstraint && constraints.isEmpty with
    | true => simp
    | false =>
      simp only [Bool.false_eq_true, if_false, true_and]
      cases made : register strategy trace constraints with
      | error clash =>
        simp only [reduceCtorEq, false_iff, not_and]
        intro distinct
        rw [register, ObjectTable.empty, (registered _).mpr ⟨distinct, rfl⟩] at made
        contradiction
      | ok table =>
        obtain ⟨distinct, rfl⟩ := (registered table).mp made
        simp [distinct, eq_comm]

/-- What keeps valid inputs from being encoded. -/
theorem of_eq_error (valid : inputFault? trace constraints = none) {fault : Fault} :
    Encoding.of strategy options trace constraints = .error fault ↔
      (strategy.needsConstraint = true ∧ constraints = [] ∧
        fault = ⟨trace.name, .noConstraint⟩) ∨
      ((strategy.needsConstraint = true → constraints ≠ []) ∧
        ∃ clash, register strategy trace constraints = .error clash ∧ fault = clash.fault) := by
  unfold Encoding.of
  rw [valid]
  generalize register strategy trace constraints = made
  cases strategy.needsConstraint <;> cases constraints <;> cases made <;> simp [eq_comm]

/-- Options decide neither whether there is an encoding nor what it is made from. -/
theorem of_options (options' : Options) : Encoding.of strategy options' trace constraints =
    (Encoding.of strategy options trace constraints).map fun e =>
      { e with options := options' } := by
  unfold Encoding.of
  split
  next => rfl
  next =>
    split
    next => rfl
    next => split <;> rfl

/-- What holds of every encoding that was made. -/
structure Accepted (e : Encoding) : Prop where
  trace : e.trace.WellFormed .trace
  constraints : ∀ c ∈ e.constraints, c.automaton.WellFormed .constraint
  objects : e.table.objects =
    (e.strategy.registrations e.trace e.constraints).map fun r => ⟨r.name.render, r.type⟩
  distinct : e.names.Nodup

/-- Trace states have objects of their own. -/
theorem Accepted.traceObject_inj (valid : e.Accepted) {j k : Nat} (bound : k < e.trace.size)
    (same : e.trace.traceObject j = e.trace.traceObject k) : j = k := by
  have distinct : (e.trace.states.map fun state => "t" ++ state).Nodup := by
    have within : ((traceRegistrations e.trace).map fun r => r.name.render).Sublist e.names := by
      apply List.Sublist.map
      cases strategy : e.strategy with
      | replicated =>
        simp only [Strategy.registrations, Replicated.registrations, List.append_assoc]
        exact List.sublist_append_left _ _
      | shared =>
        simp only [Strategy.registrations, Shared.registrations, List.append_assoc]
        exact (List.sublist_append_left _ _).trans (List.sublist_append_right _ _)
    simpa [traceRegistrations, Function.comp_def, ObjectName.render] using
      valid.distinct.sublist within
  apply valid.trace.stateName_inj distinct.of_map bound
  simpa [Automaton.traceObject, ObjectName.render, String.append_right_inj] using same

theorem mem_activities {symbol : String} : symbol ∈ activities trace constraints ↔
    symbol ∈ trace.alphabet ∨ ∃ c ∈ constraints, symbol ∈ c.automaton.alphabet := by
  simp [activities, mem_distinct]

theorem mem_canonicalOrder {c : Constraint} : c ∈ canonicalOrder constraints ↔ c ∈ constraints :=
  List.mem_mergeSort

theorem accepted (h : Encoding.of strategy options trace constraints = .ok e) : e.Accepted := by
  obtain ⟨valid, _, distinct, rfl⟩ := of_eq_ok.mp h
  obtain ⟨traceValid, valid, _⟩ := inputFault?_eq_none.mp valid
  constructor
  · exact traceValid
  · exact fun c member => valid c (mem_canonicalOrder.mp member)
  · simp only [ObjectTable.objects, List.map_map]
    rfl
  · rw [← Function.comp_def Name.caseless, ← List.map_map] at distinct
    exact distinct.of_map

/-- An encoding keeps what it was made from. -/
theorem inputs_of_ok (h : Encoding.of strategy options trace constraints = .ok e) :
    e.strategy = strategy ∧ e.options = options ∧ e.trace = trace ∧
      ∀ c, c ∈ e.constraints ↔ c ∈ constraints := by
  obtain ⟨_, _, _, rfl⟩ := of_eq_ok.mp h
  exact ⟨rfl, rfl, rfl, fun _ => mem_canonicalOrder⟩

end Encoding

namespace Sample

/-- A trace of one activity. -/
def trace : Automaton :=
  ⟨"trace", ["0", "1"], ["b"], some 0, [1], [⟨0, "b", 1⟩], none, []⟩

/-- No `a` occurs. All states before an `a` accept. -/
def absence : Constraint :=
  ⟨⟨"1", by decide, by decide⟩, ⟨"1", ["q0", "q1", "q2"], ["b", "a"], some 0, [0, 1],
    [⟨0, "b", 1⟩, ⟨0, "a", 2⟩, ⟨1, "a", 2⟩], none, []⟩⟩

/-- Some `a` occurs. -/
def existence : Constraint :=
  ⟨⟨"2", by decide, by decide⟩, ⟨"2", ["r0", "r1"], ["a"], some 0, [1], [⟨0, "a", 1⟩], none, []⟩⟩

/-- A `b` leads to an accepting state and to another one. -/
def choice : Constraint :=
  ⟨⟨"1", by decide, by decide⟩, ⟨"1", ["q0", "q1", "q2"], ["b"], some 0, [1],
    [⟨0, "b", 1⟩, ⟨0, "b", 2⟩], none, []⟩⟩

def encoding (strategy : Strategy) (options : Options) (constraints : List Constraint) :
    Encoding :=
  ⟨strategy, options, trace, constraints,
    ⟨(strategy.registrations trace constraints).map Registration.entry⟩⟩

theorem made_of_ordered {strategy : Strategy} {options : Options} {constraints : List Constraint}
    (ordered : constraints.Pairwise fun a b => a.id.le b.id = true) (nonempty : constraints ≠ [])
    (valid : inputFault? trace constraints = none)
    (distinct : ((strategy.registrations trace constraints).map fun r =>
      Name.caseless r.name.render).Nodup) :
    Encoding.of strategy options trace constraints =
      .ok (encoding strategy options constraints) := by
  have order : canonicalOrder constraints = constraints := List.mergeSort_of_pairwise ordered
  rw [Encoding.of_eq_ok, order]
  exact ⟨valid, fun _ => nonempty, distinct, rfl⟩

theorem made (strategy : Strategy) (options : Options) : Encoding.of strategy options trace
    [absence] = .ok (encoding strategy options [absence]) := by
  apply made_of_ordered (by decide) (by decide) (by decide +kernel)
  cases strategy <;> decide +kernel

theorem made_both (strategy : Strategy) (options : Options) : Encoding.of strategy options trace
    [absence, existence] = .ok (encoding strategy options [absence, existence]) := by
  apply made_of_ordered (by decide) (by decide) (by decide +kernel)
  cases strategy <;> decide +kernel

theorem made_existence (strategy : Strategy) (options : Options) : Encoding.of strategy options
    trace [existence] = .ok (encoding strategy options [existence]) := by
  apply made_of_ordered (by decide) (by decide) (by decide +kernel)
  cases strategy <;> decide +kernel

theorem made_choice (strategy : Strategy) (options : Options) : Encoding.of strategy options trace
    [choice] = .ok (encoding strategy options [choice]) := by
  apply made_of_ordered (by decide) (by decide) (by decide +kernel)
  cases strategy <;> decide +kernel

end Sample

end AlignPlan
