import AlignPlan.Proofs.Constraint.CanonicalOrder
import AlignPlan.Proofs.Encoding.Accepted

/-! The order in which constraints are listed shows neither in a task nor, for valid inputs, in
the fault that keeps it from being made. -/
namespace AlignPlan

variable {strategy : Strategy} {options : Options} {trace : Automaton}
  {constraints others : List Constraint}

theorem inputFault?_eq_none_of_perm (same : constraints.Perm others)
    (valid : inputFault? trace constraints = none) : inputFault? trace others = none := by
  obtain ⟨traceValid, wellFormed, distinct⟩ := inputFault?_eq_none.mp valid
  apply inputFault?_eq_none.mpr
  refine ⟨traceValid, ?_, ?_⟩
  · intro c member
    exact wellFormed c (same.mem_iff.mpr member)
  · exact same.pairwise distinct fun apart => apart.symm

namespace Encoding

/-- Valid constraints are put in order before anything else is made of them. -/
theorem of_eq_of_perm (same : constraints.Perm others)
    (valid : inputFault? trace constraints = none) :
    Encoding.of strategy options trace constraints =
      Encoding.of strategy options trace others := by
  obtain ⟨_, _, distinct⟩ := inputFault?_eq_none.mp valid
  have order : canonicalOrder constraints = canonicalOrder others :=
    canonicalOrder_eq_of_perm distinct same
  have empty : constraints.isEmpty = others.isEmpty := same.isEmpty_eq
  simp only [Encoding.of, register, valid, inputFault?_eq_none_of_perm same valid, order, empty]

theorem exists_of_perm (same : constraints.Perm others)
    (made : ∃ e, Encoding.of strategy options trace constraints = .ok e) :
    ∃ e, Encoding.of strategy options trace others = .ok e := by
  obtain ⟨e, made⟩ := made
  have valid : inputFault? trace constraints = none := (of_eq_ok.mp made).1
  exact ⟨e, of_eq_of_perm same valid ▸ made⟩

/-- Two lists of the same constraints are encoded or refused together. The texts they are
encoded as are the same, and of valid inputs so is the fault. -/
theorem constraint_order_immaterial (same : constraints.Perm others) :
    ((∃ e, Encoding.of strategy options trace constraints = .ok e) ↔
      ∃ e, Encoding.of strategy options trace others = .ok e) ∧
    (∀ e e', Encoding.of strategy options trace constraints = .ok e →
      Encoding.of strategy options trace others = .ok e' →
      e.domain.render = e'.domain.render ∧
        ∀ traceId, (e.problem traceId).render = (e'.problem traceId).render) ∧
    (inputFault? trace constraints = none → inputFault? trace others = none →
      ∀ fault, Encoding.of strategy options trace constraints = .error fault ↔
        Encoding.of strategy options trace others = .error fault) := by
  refine ⟨⟨exists_of_perm same, exists_of_perm same.symm⟩, ?_, ?_⟩
  · intro e e' made made'
    have valid : inputFault? trace constraints = none := (of_eq_ok.mp made).1
    rw [of_eq_of_perm same valid, made'] at made
    cases made
    exact ⟨rfl, fun _ => rfl⟩
  · intro valid _ fault
    rw [of_eq_of_perm same valid]

/-- If the first two constraints differ in letter case at most, the second is to blame. -/
theorem of_shared_eq_error {c c' : Constraint} {more : List Constraint}
    (valid : inputFault? trace constraints = none)
    (order : canonicalOrder constraints = c :: c' :: more)
    (alike : Name.caseless (ObjectName.automaton c.id).render =
      Name.caseless (ObjectName.automaton c'.id).render) :
    Encoding.of .shared options trace constraints =
      .error ⟨c'.id.text, .collision (ObjectName.automaton c'.id).render⟩ := by
  have nonempty : constraints.isEmpty = false := by
    cases constraints with
    | nil => simp [canonicalOrder] at order
    | cons => rfl
  simp [Encoding.of, valid, nonempty, register, order, Strategy.registrations,
    Shared.registrations, ObjectTable.addAll, ObjectTable.add, ObjectTable.holder?,
    ObjectTable.empty, Registration.entry, alike, Clash.fault]

end Encoding

namespace Sample

/-- Two ids that differ in letter case, which is enough to tell constraints apart but not the
objects they are called by. -/
def upper : Constraint := ⟨⟨"B", by decide, by decide⟩, existence.automaton⟩

def lower : Constraint := ⟨⟨"b", by decide, by decide⟩, existence.automaton⟩

theorem letterCases_valid : inputFault? Sample.trace [upper, lower] = none := by decide +kernel

theorem letterCases_clash (options : Options) : Encoding.of .shared options Sample.trace
    [upper, lower] = .error ⟨"b", .collision "ab"⟩ := by
  have order : canonicalOrder [upper, lower] = [upper, lower] :=
    List.mergeSort_of_pairwise (by decide)
  have text : (ObjectName.automaton lower.id).render = "ab" := by decide +kernel
  rw [Encoding.of_shared_eq_error letterCases_valid order, text]
  · rfl
  · rw [← String.toList_inj, Name.caseless, Name.caseless, String.toList_map, String.toList_map]
    decide +kernel

end Sample

namespace Encoding

/-- Constraints listed against their order, and two whose objects clash, listed either way. -/
theorem constraint_order_sample :
    (∃ e, Encoding.of .replicated ⟨.traceGuarded, .unit, false⟩ Sample.trace
        [Sample.existence, Sample.absence] = .ok e ∧
      (e.problem 5).render = ((Sample.encoding .replicated ⟨.traceGuarded, .unit, false⟩
        [Sample.absence, Sample.existence]).problem 5).render) ∧
    Encoding.of .shared ⟨.unconstrained, .free, false⟩ Sample.trace
      [Sample.lower, Sample.upper] = .error ⟨"b", .collision "ab"⟩ := by
  constructor
  · have made := Sample.made_both .replicated ⟨.traceGuarded, .unit, false⟩
    have swap : [Sample.absence, Sample.existence].Perm [Sample.existence, Sample.absence] :=
      .swap _ _ _
    obtain ⟨together, texts, _⟩ := constraint_order_immaterial swap
    obtain ⟨e, swapped⟩ := together.mp ⟨_, made⟩
    exact ⟨e, swapped, ((texts _ e made swapped).2 5).symm⟩
  · have swap : [Sample.upper, Sample.lower].Perm [Sample.lower, Sample.upper] := .swap _ _ _
    obtain ⟨_, _, faults⟩ := constraint_order_immaterial swap
    have valid := Sample.letterCases_valid
    exact (faults valid (inputFault?_eq_none_of_perm swap valid) _).mp (Sample.letterCases_clash _)

end Encoding

end AlignPlan
