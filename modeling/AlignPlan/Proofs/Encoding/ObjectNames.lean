import AlignPlan.Proofs.Encoding.Accepted
import AlignPlan.Proofs.Validation.Names

/-! The names of planning objects. Every object has a name of the shape that the planning
language asks for. Reserved words are kept from being activities and cannot be the names of
states, but the object of a constraint is `a` with its id, and nothing keeps ids from being
`nd`. -/
namespace AlignPlan

open Planning

namespace Name

/-- The shape of a name in the planning language: a letter comes first, and only letters,
digits, `_` and `-` follow. -/
def isPlanningName (text : String) : Bool :=
  text.toList.head?.any Char.isAlpha && text.toList.all isNameChar

theorem activityDefect?_eq_none {text : String} : activityDefect? text = none ↔
    isPlanningName text = true ∧ isReserved text = false := by
  unfold activityDefect? isPlanningName
  rw [Option.or_eq_none_iff, defect?_eq_none]
  by_cases letter : text.toList.head?.any Char.isAlpha = true
  · have nonempty : text ≠ "" := by rintro rfl; simp at letter
    cases reserved : isReserved text <;> simp [letter, nonempty]
  · simp [letter]

theorem isPlanningName_append {a b : String} (ha : isPlanningName a = true)
    (hb : b.toList.all isNameChar = true) : isPlanningName (a ++ b) = true := by
  simp only [isPlanningName, Bool.and_eq_true] at ha ⊢
  obtain ⟨letter, plain⟩ := ha
  cases first : a.toList with
  | nil => simp [first] at letter
  | cons c cs => simp_all

theorem all_isNameChar_decimal (n : Nat) : (Decimal.render n).toList.all isNameChar = true := by
  rw [List.all_eq_true]
  intro c member
  exact isNameChar_of_isAlphanum (by simp [Char.isAlphanum, Decimal.isDigit_of_mem_render member])

/-- A first letter that no reserved word has. -/
theorem isReserved_eq_false {text : String} {c : Char} (first : text.toList.head? = some c)
    (apart : ∀ word ∈ reservedWords, word.toList.head? ≠ some c.toLower) :
    isReserved text = false := by
  rw [isReserved, Bool.eq_false_iff, Ne, List.contains_iff_mem]
  intro reserved
  apply apart _ reserved
  simp [caseless, first]

/-- Only one reserved word starts with this letter. -/
theorem isReserved_append_a {text : String} :
    isReserved ("a" ++ text) = true ↔ caseless text = "nd" := by
  have key : (caseless ("a" ++ text)).toList = 'a' :: (caseless text).toList := by
    simp [caseless]
  rw [isReserved, List.contains_iff_mem]
  simp only [reservedWords, List.mem_cons, List.not_mem_nil, or_false, ← String.toList_inj, key]
  simp

end Name

namespace ObjectName

/-- The parts of a name that come from automata have passed validation. -/
def Checked : ObjectName → Prop
  | .traceState state | .automatonState _ state => Name.defect? state = none
  | .activity symbol => Name.activityDefect? symbol = none
  | .jointAccept _ | .automaton _ | .pooledState _ | .dummyActivity => True

variable {name : ObjectName}

theorem isPlanningName_render (checked : name.Checked) :
    Name.isPlanningName name.render = true := by
  have ids (id : AutomatonId) : id.text.toList.all Name.isNameChar = true := by
    rw [List.all_eq_true]
    intro c member
    exact Name.isNameChar_of_isAlphanum (List.all_eq_true.mp id.alphanumeric c member)
  cases name with
  | traceState state =>
    exact Name.isPlanningName_append (by decide) (Name.defect?_eq_none.mp checked).2
  | automatonState id state =>
    have tagged := Name.isPlanningName_append (a := "s_") (by decide) (ids id)
    exact Name.isPlanningName_append (Name.isPlanningName_append tagged (by decide))
      (Name.defect?_eq_none.mp checked).2
  | jointAccept id => exact Name.isPlanningName_append (by decide) (ids id)
  | automaton id => exact Name.isPlanningName_append (by decide) (ids id)
  | pooledState index =>
    exact Name.isPlanningName_append (by decide) (Name.all_isNameChar_decimal index)
  | activity symbol => exact (Name.activityDefect?_eq_none.mp checked).1
  | dummyActivity => decide

theorem isReserved_render (checked : name.Checked) : Name.isReserved name.render = true ↔
    ∃ id, name = .automaton id ∧ Name.caseless id.text = "nd" := by
  have free {c : Char} (first : name.render.toList.head? = some c)
      (unused : ∀ word ∈ Name.reservedWords, word.toList.head? ≠ some c.toLower) :
      ¬Name.isReserved name.render = true := by simp [Name.isReserved_eq_false first unused]
  cases name with
  | automaton id => simp [render, Name.isReserved_append_a]
  | traceState state => simp [free (c := 't') (by simp [render]) (by decide)]
  | automatonState id state => simp [free (c := 's') (by simp [render]) (by decide)]
  | jointAccept id => simp [free (c := 'g') (by simp [render]) (by decide)]
  | pooledState index => simp [free (c := 's') (by simp [render]) (by decide)]
  | activity symbol => simp [render, (Name.activityDefect?_eq_none.mp checked).2]
  | dummyActivity =>
    have free : Name.isReserved dummyName = false := by decide +kernel
    simp [render, free]

end ObjectName

/-- No `a` occurs, as a constraint whose object has the name of a connective. -/
def Sample.misnamed : Constraint := ⟨⟨"nd", by decide, by decide⟩, Sample.absence.automaton⟩

theorem Sample.made_misnamed (options : Options) : Encoding.of .shared options trace [misnamed] =
    .ok (encoding .shared options [misnamed]) :=
  made_of_ordered (by decide) (by decide) (by decide +kernel) (by decide +kernel)

namespace Encoding

variable {strategy : Strategy} {options : Options} {trace : Automaton}
  {constraints : List Constraint} {e : Encoding} {traceId : Nat}

/-- What the replicated encoding registers. -/
theorem Replicated.mem_registrations {r : Registration} : r ∈ registrations trace constraints ↔
    (∃ state ∈ trace.states, r = ⟨.traceState state, traceStateType, trace.name⟩) ∨
    (∃ c ∈ constraints, ∃ state ∈ c.automaton.states,
      r = ⟨.automatonState c.id state, automatonStateType, c.id.text⟩) ∨
    (∃ c ∈ constraints, needsJoint c = true ∧
      r = ⟨.jointAccept c.id, automatonStateType, c.id.text⟩) ∨
    (∃ symbol ∈ activities trace constraints, r = ⟨.activity symbol, actType, trace.name⟩) ∨
    r = ⟨.dummyActivity, dummyActType, trace.name⟩ := by
  have joint {c : Constraint} : (r ∈ if needsJoint c = true then
      [(⟨.jointAccept c.id, automatonStateType, c.id.text⟩ : Registration)] else []) ↔
      needsJoint c = true ∧ r = ⟨.jointAccept c.id, automatonStateType, c.id.text⟩ := by
    split <;> simp [*]
  simp only [registrations, traceRegistrations, constraintRegistrations, activityRegistrations,
    List.mem_append, List.mem_flatMap, List.mem_map, List.mem_singleton, joint, and_or_left,
    exists_or, or_assoc, @eq_comm _ _ r]

/-- What the shared encoding registers. -/
theorem Shared.mem_registrations {r : Registration} : r ∈ registrations trace constraints ↔
    (∃ c ∈ constraints, r = ⟨.automaton c.id, automatonType, c.id.text⟩) ∨
    (∃ state ∈ trace.states, r = ⟨.traceState state, traceStateType, trace.name⟩) ∨
    (∃ index < poolSize constraints,
      r = ⟨.pooledState index, automatonStateType, trace.name⟩) ∨
    (∃ symbol ∈ activities trace constraints,
      r = ⟨.activity symbol, activityType, trace.name⟩) := by
  simp only [registrations, traceRegistrations, activityRegistrations, List.mem_append,
    List.mem_map, List.mem_range, or_assoc, @eq_comm _ _ r]

theorem Accepted.activity_checked (valid : e.Accepted) {symbol : String}
    (known : symbol ∈ activities e.trace e.constraints) : Name.activityDefect? symbol = none := by
  rcases mem_activities.mp known with own | ⟨c, member, own⟩
  · exact valid.trace.alphabet symbol own
  · exact (valid.constraints c member).alphabet symbol own

/-- Every object of an encoding has a name made of checked parts. -/
theorem Accepted.checked (valid : e.Accepted) {r : Registration}
    (registered : r ∈ e.strategy.registrations e.trace e.constraints) : r.name.Checked := by
  cases strategy : e.strategy with
  | replicated =>
    rw [strategy, Strategy.registrations, Replicated.mem_registrations] at registered
    rcases registered with ⟨state, listed, rfl⟩ | ⟨c, member, state, listed, rfl⟩ | ⟨_, _, _, rfl⟩ |
      ⟨symbol, known, rfl⟩ | rfl
    · exact valid.trace.states state listed
    · exact (valid.constraints c member).states state listed
    · trivial
    · exact valid.activity_checked known
    · trivial
  | shared =>
    rw [strategy, Strategy.registrations, Shared.mem_registrations] at registered
    rcases registered with ⟨_, _, rfl⟩ | ⟨state, listed, rfl⟩ | ⟨_, _, rfl⟩ | ⟨symbol, known, rfl⟩
    · trivial
    · exact valid.trace.states state listed
    · trivial
    · exact valid.activity_checked known

/-- Only the shared encoding has objects for constraints. -/
theorem eq_of_automaton_mem {id : AutomatonId} {r : Registration} (named : r.name = .automaton id)
    (registered : r ∈ e.strategy.registrations e.trace e.constraints) :
    e.strategy = .shared ∧ ∃ c ∈ e.constraints, c.id = id ∧ r.type = Shared.automatonType := by
  cases strategy : e.strategy with
  | replicated =>
    rw [strategy, Strategy.registrations, Replicated.mem_registrations] at registered
    rcases registered with ⟨_, _, rfl⟩ | ⟨_, _, _, _, rfl⟩ | ⟨_, _, _, rfl⟩ | ⟨_, _, rfl⟩ | rfl <;>
      contradiction
  | shared =>
    rw [strategy, Strategy.registrations, Shared.mem_registrations] at registered
    rcases registered with ⟨c, member, rfl⟩ | ⟨_, _, rfl⟩ | ⟨_, _, rfl⟩ | ⟨_, _, rfl⟩
    · exact ⟨rfl, c, member, ObjectName.automaton.inj named, rfl⟩
    all_goals contradiction

/-- All objects have names of the right shape. A reserved word is among them exactly if a
constraint of the shared encoding has an id that makes `and` of its object, in any letter case. -/
theorem isReserved_object_iff (made : Encoding.of strategy options trace constraints = .ok e)
    (traceId : Nat) : ∀ o ∈ (e.problem traceId).objects, Name.isPlanningName o.name = true ∧
      (Name.isReserved o.name = true ↔ strategy = .shared ∧ ∃ c ∈ constraints,
        Name.caseless c.id.text = "nd" ∧ o = ⟨"a" ++ c.id.text, Shared.automatonType⟩) := by
  have valid := accepted made
  obtain ⟨rfl, _, _, listed⟩ := inputs_of_ok made
  intro o member
  change o ∈ e.table.objects at member
  rw [valid.objects] at member
  obtain ⟨r, registered, rfl⟩ := List.mem_map.mp member
  have checked := valid.checked registered
  refine ⟨ObjectName.isPlanningName_render checked, ?_⟩
  constructor
  · intro reserved
    obtain ⟨id, named, spelled⟩ := (ObjectName.isReserved_render checked).mp reserved
    obtain ⟨shared, c, among, rfl, typed⟩ := eq_of_automaton_mem named registered
    exact ⟨shared, c, (listed c).mp among, spelled, by rw [named, typed]; rfl⟩
  · rintro ⟨_, c, _, spelled, same⟩
    rw [same]
    exact Name.isReserved_append_a.mpr spelled

/-- A constraint that gets a reserved word for its object. -/
theorem isReserved_object_sample :
    let e := Sample.encoding .shared ⟨.unconstrained, .free, false⟩ [Sample.misnamed]
    ⟨"and", Shared.automatonType⟩ ∈ (e.problem 0).objects ∧ Name.isReserved "and" = true ∧
      ∃ c ∈ [Sample.misnamed], Name.caseless c.id.text = "nd" ∧
        (⟨"and", Shared.automatonType⟩ : Object) = ⟨"a" ++ c.id.text, Shared.automatonType⟩ := by
  have listed : ⟨"and", Shared.automatonType⟩ ∈ ((Sample.encoding .shared
      ⟨.unconstrained, .free, false⟩ [Sample.misnamed]).problem 0).objects := by decide +kernel
  have reserved : Name.isReserved "and" = true := by decide +kernel
  have all := isReserved_object_iff (Sample.made_misnamed ⟨.unconstrained, .free, false⟩) 0 _ listed
  exact ⟨listed, reserved, (all.2.mp reserved).2⟩

/-- An id in the way of the planning language. -/
theorem exists_reserved_object : ¬∀ (strategy : Strategy) (options : Options) (trace : Automaton)
    (constraints : List Constraint) (e : Encoding),
    Encoding.of strategy options trace constraints = .ok e → ∀ traceId,
      ∀ o ∈ (e.problem traceId).objects,
        Name.isPlanningName o.name = true ∧ Name.isReserved o.name = false := by
  intro all
  have legal := all _ ⟨.unconstrained, .free, false⟩ _ _ _ (Sample.made_misnamed _) 0
    ⟨"and", Shared.automatonType⟩ (by decide +kernel)
  exact absurd legal.2 (by decide +kernel)

end Encoding

end AlignPlan
