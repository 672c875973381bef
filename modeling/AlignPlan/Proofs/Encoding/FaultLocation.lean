import AlignPlan.Proofs.Encoding.Accepted
import AlignPlan.Proofs.Format.Declarations
import AlignPlan.Proofs.Format.Soundness
import AlignPlan.Proofs.Validation.FirstViolation
import Mathlib.Data.List.Duplicate
import Mathlib.Data.List.Pairwise

/-! Where the fault of an encoding is found in the file. The automaton that is reported stands in a
block of the file, and that block is at fault itself unless an id is repeated. -/
namespace AlignPlan

/-- The objects that are charged to a constraint. -/
def Strategy.ownRegistrations (strategy : Strategy) (c : Constraint) : List Registration :=
  match strategy with
  | .replicated => Encoding.Replicated.constraintRegistrations c
  | .shared => [⟨.automaton c.id, Encoding.Shared.automatonType, c.id.text⟩]

/-- A constraint that fails its own check, or brings in an object of a name that is taken. -/
inductive Constraint.AtFault (c : Constraint) (strategy : Strategy) (trace : Automaton)
    (constraints : List Constraint) (fault : Fault) : Prop
  | check (found : c.automaton.fault? c.id.text .constraint = some fault)
  | object {r : Registration} {clash : Clash} (valid : inputFault? trace constraints = none)
      (found : Encoding.register strategy trace constraints = .error clash)
      (own : r ∈ strategy.ownRegistrations c) (newcomer : clash.newcomer = r.entry)
      (same : fault = clash.fault)

namespace Encoding

variable {strategy : Strategy} {options : Options} {trace : Automaton}
  {constraints : List Constraint} {fault : Fault}

theorem owner_of_mem_ownRegistrations {c : Constraint} {r : Registration}
    (own : r ∈ strategy.ownRegistrations c) : r.owner = c.id.text := by
  cases strategy with
  | replicated =>
    rcases List.mem_append.mp own with state | joint
    · obtain ⟨_, _, rfl⟩ := List.mem_map.mp state
      rfl
    · split at joint
      · rw [List.mem_singleton.mp joint]
      · cases joint
  | shared => rw [List.mem_singleton.mp own]

theorem charged_of_mem_registrations {r : Registration}
    (listed : r ∈ strategy.registrations trace constraints) :
    r.owner = trace.name ∨ ∃ c ∈ constraints, r ∈ strategy.ownRegistrations c := by
  have states : ∀ r ∈ traceRegistrations trace, r.owner = trace.name := by
    simp [traceRegistrations]
  have symbols (type : String) :
      ∀ r ∈ activityRegistrations trace constraints type, r.owner = trace.name := by
    simp [activityRegistrations]
  cases strategy with
  | replicated =>
    simp only [Strategy.registrations, Replicated.registrations, List.mem_append,
      List.mem_flatMap, List.mem_singleton] at listed
    rcases listed with ((state | ⟨c, member, own⟩) | symbol) | rfl
    · exact .inl (states r state)
    · exact .inr ⟨c, member, own⟩
    · exact .inl (symbols _ r symbol)
    · exact .inl rfl
  | shared =>
    simp only [Strategy.registrations, Shared.registrations, List.mem_append,
      List.mem_map] at listed
    rcases listed with ((⟨c, member, rfl⟩ | state) | ⟨k, _, rfl⟩) | symbol
    · exact .inr ⟨c, member, List.mem_singleton_self _⟩
    · exact .inl (states r state)
    · exact .inl rfl
    · exact .inl (symbols _ r symbol)

theorem automaton_of_fault? {a : Automaton} {label : String} {role : Role}
    (found : a.fault? label role = some fault) : fault.automaton = label := by
  obtain ⟨cause, _, rfl⟩ := Option.map_eq_some_iff.mp found
  rfl

/-- Some constraint is the first of an id that a constraint has. -/
theorem exists_first {c : Constraint} (member : c ∈ constraints) :
    ∃ c', (constraints.find? fun d => d.id.text = c'.id.text) = some c' ∧ c'.id = c.id := by
  cases found : constraints.find? fun d => d.id.text = c.id.text with
  | none => simpa using List.find?_eq_none.mp found c member
  | some c' =>
    have same : c'.id.text = c.id.text := by simpa using List.find?_some found
    exact ⟨c', by rw [same, found], AutomatonId.text_inj.mp same⟩

/-- A fault names the trace, a constraint whose id is repeated or a constraint at fault. A
constraint that it names is the first of its id. -/
def Charged (strategy : Strategy) (trace : Automaton) (constraints : List Constraint)
    (fault : Fault) : Prop :=
  fault.automaton = trace.name ∨ ∃ c,
    (constraints.find? fun c' => c'.id.text = c.id.text) = some c ∧
    fault.automaton = c.id.text ∧
    (fault.cause = .collision c.id.text ∧ List.Duplicate c.id (constraints.map Constraint.id) ∨
      c.AtFault strategy trace constraints fault)

theorem charged_of_inputFault? (found : inputFault? trace constraints = some fault) :
    Charged strategy trace constraints fault := by
  rcases inputFault?_eq_some.mp found with own | ⟨_, found⟩
  · exact .inl (automaton_of_fault? own)
  · obtain ⟨earlier, c, later, order, _, reported⟩ := findSome?_constraintChecks.mp found
    rw [List.nil_append] at reported
    rcases reported with ⟨repeated, rfl⟩ | ⟨fresh, own⟩
    · obtain ⟨c', first, same⟩ := exists_first (by simp [order] : c ∈ constraints)
      have twice : List.Duplicate c.id (constraints.map Constraint.id) := by
        rw [List.duplicate_iff_two_le_count, order, List.map_append, List.count_append,
          List.map_cons, List.count_cons_self]
        have := List.count_pos_iff.mpr repeated
        omega
      exact .inr ⟨c', first, by rw [same], .inl ⟨by rw [same], same ▸ twice⟩⟩
    · have apart : (earlier.find? fun d => d.id.text = c.id.text) = none := by
        simp only [List.find?_eq_none, decide_eq_true_eq]
        intro d listed same
        exact fresh (List.mem_map.mpr ⟨d, listed, AutomatonId.text_inj.mp same⟩)
      have first : (constraints.find? fun d => d.id.text = c.id.text) = some c := by
        rw [order, List.find?_append, apart, Option.none_or, List.find?_cons_of_pos (by simp)]
      exact .inr ⟨c, first, automaton_of_fault? own, .inr (.check own)⟩

/-- Valid inputs repeat no id, so the constraint of an object is the only one of its id. -/
theorem charged_of_register {clash : Clash} (valid : inputFault? trace constraints = none)
    (found : register strategy trace constraints = .error clash) :
    Charged strategy trace constraints clash.fault := by
  obtain ⟨before, r, after, order, newcomer, _, _⟩ := ObjectTable.exists_of_addAll_eq_error found
  have charged : clash.fault.automaton = r.owner := congrArg ObjectEntry.owner newcomer
  have listed : r ∈ strategy.registrations trace (canonicalOrder constraints) := by simp [order]
  rcases charged_of_mem_registrations listed with owner | ⟨c, member, own⟩
  · exact .inl (charged.trans owner)
  · obtain ⟨_, _, distinct⟩ := inputFault?_eq_none.mp valid
    have member := mem_canonicalOrder.mp member
    obtain ⟨c', first, same⟩ := exists_first member
    have alone : c' = c := by
      by_contra different
      have symm : Std.Symm fun c d : Constraint => c.id ≠ d.id := ⟨fun _ _ apart => apart.symm⟩
      exact distinct.forall (List.mem_of_find?_eq_some first) member different same
    cases alone
    exact .inr ⟨c, first, charged.trans (owner_of_mem_ownRegistrations own),
      .inr (.object valid found own newcomer rfl)⟩

theorem charged_of_eq_error
    (failed : Encoding.of strategy options trace constraints = .error fault) :
    Charged strategy trace constraints fault := by
  cases input : inputFault? trace constraints with
  | some fault' =>
    simp only [Encoding.of, input] at failed
    cases failed
    exact charged_of_inputFault? input
  | none =>
    rcases (of_eq_error input).mp failed with ⟨_, _, rfl⟩ | ⟨_, clash, found, rfl⟩
    · exact .inl rfl
    · exact charged_of_register input found

end Encoding

namespace Document

variable {d : Document} {file : Nat} {text : String} {strategy : Strategy} {options : Options}
  {t : TraceInput} {fault : Fault}

/-- Every fault of an encoding is found at a block of the file: the only block of that trace, or the
first of a constraint id. This is the block at fault unless the id is repeated. -/
theorem fault_at_block (read : parse file text = .ok d) (member : t ∈ d.traces)
    (failed : Encoding.of strategy options t.automaton d.constraints = .error fault) :
    ∃ blocks block, Format.readBlocks text = .ok blocks ∧
      d.spanOf fault.automaton = some ⟨block.start, block.stop, file⟩ ∧
      (fault.automaton = t.automaton.name ∧ blocks.filter (isTraceBlock t.id) = [block] ∧
          DeclaresTrace file block t ∨
        ∃ c ∈ d.constraints, fault.automaton = c.id.text ∧
          blocks.find? (isConstraintBlock c.id.text) = some block ∧
          DeclaresConstraint file block c ∧
          (fault.cause = .collision c.id.text ∧
              List.Duplicate c.id (d.constraints.map Constraint.id) ∨
            c.AtFault strategy t.automaton d.constraints fault)) := by
  obtain ⟨blocks, found, declared⟩ := declaredBy_of_parse read
  rcases Encoding.charged_of_eq_error failed with charged | ⟨c, first, charged, reason⟩
  · obtain ⟨block, only, declares, place⟩ :=
      declared.spanOf_trace (sound_of_parse read).traceIds member
    exact ⟨blocks, block, found, charged ▸ place, .inl ⟨charged, only, declares⟩⟩
  · obtain ⟨block, earliest, declares, place⟩ := declared.spanOf_constraint first
    exact ⟨blocks, block, found, charged ▸ place,
      .inr ⟨c, List.mem_of_find?_eq_some first, charged, earliest, declares, reason⟩⟩

end Document

namespace Sample

/-- The first block of the constraint is empty, and the second repeats its id. -/
def repeatedBlocks : String :=
  "trace 4 \x7bstates a; init a; accept a;\x7d constraint 5 \x7b\x7d constraint 5 \x7b\x7d"

def repeatedTrace : TraceInput :=
  ⟨4, ⟨"trace 4", ["a"], [], some 0, [0], [], some ⟨0, 37, 0⟩, []⟩⟩

def repeatedDocument : Document where
  traces := [repeatedTrace]
  constraints :=
    [⟨⟨"5", by decide, by decide⟩, ⟨"5", [], [], none, [], [], some ⟨38, 53, 0⟩, []⟩⟩,
     ⟨⟨"5", by decide, by decide⟩, ⟨"5", [], [], none, [], [], some ⟨54, 69, 0⟩, []⟩⟩]

end Sample

namespace Document

/-- The first block is reported, for itself and not for the id. -/
theorem fault_at_block_sample :
    parse 0 Sample.repeatedBlocks = .ok Sample.repeatedDocument ∧
    Encoding.of .shared ⟨.unconstrained, .free, false⟩ Sample.repeatedTrace.automaton
      Sample.repeatedDocument.constraints = .error ⟨"5", .noInitialState⟩ ∧
    ∃ blocks block c, Format.readBlocks Sample.repeatedBlocks = .ok blocks ∧
      blocks.find? (isConstraintBlock "5") = some block ∧
      (block.start, block.stop) = (38, 53) ∧ DeclaresConstraint 0 block c ∧
      c.AtFault .shared Sample.repeatedTrace.automaton Sample.repeatedDocument.constraints
        ⟨"5", .noInitialState⟩ := by
  have read : parse 0 Sample.repeatedBlocks = .ok Sample.repeatedDocument := by
    have found : (parse 0 Sample.repeatedBlocks).toOption = some Sample.repeatedDocument := by
      decide +kernel
    cases result : parse 0 Sample.repeatedBlocks <;> simp_all [Except.toOption]
  have input : inputFault? Sample.repeatedTrace.automaton Sample.repeatedDocument.constraints =
      some ⟨"5", .noInitialState⟩ := by decide +kernel
  have failed : Encoding.of .shared ⟨.unconstrained, .free, false⟩ Sample.repeatedTrace.automaton
      Sample.repeatedDocument.constraints = .error ⟨"5", .noInitialState⟩ := by
    simp only [Encoding.of, input]
  have place : Sample.repeatedDocument.spanOf "5" = some ⟨38, 53, 0⟩ := by decide +kernel
  refine ⟨read, failed, ?_⟩
  obtain ⟨blocks, block, found, here, ⟨other, _⟩ | ⟨c, _, named, first, declares, reason⟩⟩ :=
    fault_at_block read List.mem_cons_self failed
  · exact absurd other (by decide)
  · obtain ⟨start, stop, _⟩ := Span.mk.inj (Option.some.inj (place.symm.trans here))
    have ends : (block.start, block.stop) = (38, 53) := by rw [start, stop]
    rcases reason with ⟨repeated, _⟩ | atFault
    · cases repeated
    · exact ⟨blocks, block, c, found, by rw [← first, ← named], ends, declares, atFault⟩

end Document

end AlignPlan
