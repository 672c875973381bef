import AlignPlan.Proofs.Validation.WellFormed

/-! Which fault validation reports. Automata pass exactly if they are well formed and no two
constraints have one id; of all that is wrong with other automata, the first violation in the order
of the checks is the one reported. -/
namespace AlignPlan

/-- The first member of a list that something is wrong with. -/
def FirstOf {α : Type} (xs : List α) (Bad : α → Prop) (x : α) : Prop :=
  ∃ before after, xs = before ++ x :: after ∧ (∀ y ∈ before, ¬Bad y) ∧ Bad x

theorem findSome?_eq_some_iff_firstOf {α β : Type} {xs : List α} {f : α → Option β} {y : β} :
    xs.findSome? f = some y ↔ ∃ x, FirstOf xs (fun x => f x ≠ none) x ∧ f x = some y := by
  rw [List.findSome?_eq_some_iff]
  constructor
  · rintro ⟨before, x, after, whole, found, none⟩
    refine ⟨x, ⟨before, after, whole, ?_, by simp [found]⟩, found⟩
    exact fun z member => not_not_intro (none z member)
  · rintro ⟨x, ⟨before, after, whole, fine, _⟩, found⟩
    exact ⟨before, x, after, whole, found, fun z member => not_not.mp (fine z member)⟩

theorem find?_eq_some_iff_firstOf {α : Type} {xs : List α} {p : α → Bool} {x : α} :
    xs.find? p = some x ↔ FirstOf xs (fun x => p x = true) x := by
  rw [List.find?_eq_some_iff_append]
  constructor
  · rintro ⟨found, before, after, whole, fine⟩
    exact ⟨before, after, whole, fun y member => by simpa using fine y member, found⟩
  · rintro ⟨before, after, whole, fine, found⟩
    exact ⟨found, before, after, whole, fun y member => by simpa using fine y member⟩

namespace Automaton

/-- The checks of names pass. -/
structure Named (a : Automaton) : Prop where
  states : ∀ state ∈ a.states, Name.defect? state = none
  alphabet : ∀ symbol ∈ a.alphabet, Name.activityDefect? symbol = none

/-- So does the check of the initial state, which comes after them. -/
structure Started (a : Automaton) : Prop extends a.Named where
  initial : ∃ state, a.initial = some state ∧ state < a.size

/-- So do the checks of the accepting states, which come next. Only transitions are left. -/
structure Ended (a : Automaton) (role : Role) : Prop extends a.Started where
  someAccepting : a.accepting ≠ []
  fewAccepting : role = .trace → a.accepting.length ≤ 1
  accepting : ∀ state ∈ a.accepting, state < a.size

/-- A transition between states of the automaton, along a symbol of its alphabet. -/
def Runs (a : Automaton) (t : Transition) : Prop :=
  t.source < a.size ∧ t.target < a.size ∧ t.symbol ∈ a.alphabet

/-- What is reported of an automaton: the first violation, with all that is checked before it in
order. -/
inductive FirstViolation (a : Automaton) (role : Role) : Fault.Cause → Prop
  | stateName {name defect} (first : FirstOf a.states (fun name => Name.defect? name ≠ none) name)
      (why : Name.defect? name = some defect) : FirstViolation a role (.badName name defect.message)
  | symbol {symbol defect} (states : ∀ state ∈ a.states, Name.defect? state = none)
      (first : FirstOf a.alphabet (fun symbol => Name.activityDefect? symbol ≠ none) symbol)
      (why : Name.activityDefect? symbol = some defect) :
      FirstViolation a role (.badName symbol defect.message)
  | noInitial (named : a.Named) (missing : a.initial = none) : FirstViolation a role .noInitialState
  | unknownInitial {state} (named : a.Named) (initial : a.initial = some state)
      (unknown : a.size ≤ state) :
      FirstViolation a role (.unknownState "initial" (stateLabel state))
  | noAccepting (started : a.Started) (missing : a.accepting = []) :
      FirstViolation a role .noAcceptingState
  | severalAccepting (started : a.Started) (trace : role = .trace)
      (several : 1 < a.accepting.length) :
      FirstViolation a role (.tooManyAcceptingStates a.accepting.length)
  | unknownAccepting {state} (started : a.Started)
      (few : role = .trace → a.accepting.length ≤ 1)
      (first : FirstOf a.accepting (fun state => a.size ≤ state) state) :
      FirstViolation a role (.unknownState "accept" (stateLabel state))
  | source {t} (ended : a.Ended role) (first : FirstOf a.transitions (fun t => ¬a.Runs t) t)
      (unknown : a.size ≤ t.source) : FirstViolation a role (.badTransition (a.describe t)
        ("source " ++ stateLabel t.source ++ " is not a state of the automaton"))
  | target {t} (ended : a.Ended role) (first : FirstOf a.transitions (fun t => ¬a.Runs t) t)
      (source : t.source < a.size) (unknown : a.size ≤ t.target) :
      FirstViolation a role (.badTransition (a.describe t)
        ("target " ++ stateLabel t.target ++ " is not a state of the automaton"))
  | undeclared {t} (ended : a.Ended role) (first : FirstOf a.transitions (fun t => ¬a.Runs t) t)
      (source : t.source < a.size) (target : t.target < a.size) (unknown : t.symbol ∉ a.alphabet) :
      FirstViolation a role (.badTransition (a.describe t)
        ("symbol `" ++ t.symbol ++ "` is not in the alphabet"))

variable {a : Automaton} {role : Role} {cause : Fault.Cause}

theorem badState?_eq_none :
    a.badState? = none ↔ ∀ state ∈ a.states, Name.defect? state = none := by
  simp [badState?]

theorem badSymbol?_eq_none :
    a.badSymbol? = none ↔ ∀ symbol ∈ a.alphabet, Name.activityDefect? symbol = none := by
  simp [badSymbol?]

theorem badState?_eq_some : a.badState? = some cause ↔ ∃ name defect,
    FirstOf a.states (fun name => Name.defect? name ≠ none) name ∧
      Name.defect? name = some defect ∧ cause = .badName name defect.message := by
  simp only [badState?, findSome?_eq_some_iff_firstOf, Option.map_eq_some_iff, ne_eq,
    Option.map_eq_none_iff]
  grind

theorem badSymbol?_eq_some : a.badSymbol? = some cause ↔ ∃ symbol defect,
    FirstOf a.alphabet (fun symbol => Name.activityDefect? symbol ≠ none) symbol ∧
      Name.activityDefect? symbol = some defect ∧ cause = .badName symbol defect.message := by
  simp only [badSymbol?, findSome?_eq_some_iff_firstOf, Option.map_eq_some_iff, ne_eq,
    Option.map_eq_none_iff]
  grind

theorem badInitial?_eq_some : a.badInitial? = some cause ↔
    (a.initial = none ∧ cause = .noInitialState) ∨
    ∃ state, a.initial = some state ∧ a.size ≤ state ∧
      cause = .unknownState "initial" (stateLabel state) := by
  unfold badInitial?
  cases a.initial <;> simp [hasState, eq_comm]

theorem badAccepting?_eq_some : a.badAccepting? role = some cause ↔
    (a.accepting = [] ∧ cause = .noAcceptingState) ∨
    (role = .trace ∧ 1 < a.accepting.length ∧
      cause = .tooManyAcceptingStates a.accepting.length) ∨
    ∃ state, (role = .trace → a.accepting.length ≤ 1) ∧
      FirstOf a.accepting (fun state => a.size ≤ state) state ∧
      cause = .unknownState "accept" (stateLabel state) := by
  unfold badAccepting?
  split
  next empty =>
    have empty : a.accepting = [] := List.isEmpty_iff.mp empty
    constructor
    · intro found
      exact .inl ⟨empty, (Option.some.inj found).symm⟩
    · rintro (⟨_, rfl⟩ | ⟨_, several, _⟩ | ⟨state, _, ⟨before, after, whole, _⟩, _⟩)
      · rfl
      · simp [empty] at several
      · simp [empty] at whole
  next nonempty =>
    have nonempty : a.accepting ≠ [] := fun empty => nonempty (List.isEmpty_iff.mpr empty)
    split
    next several =>
      constructor
      · intro found
        exact .inr (.inl ⟨several.1, several.2, (Option.some.inj found).symm⟩)
      · rintro (⟨empty, _⟩ | ⟨_, _, rfl⟩ | ⟨state, few, _, _⟩)
        · exact absurd empty nonempty
        · rfl
        · exact absurd (few several.1) (Nat.not_le_of_lt several.2)
    next few =>
      have unknown (state : Nat) : (!a.hasState state) = true ↔ a.size ≤ state := by simp [hasState]
      simp only [Option.map_eq_some_iff, find?_eq_some_iff_firstOf, unknown]
      constructor
      · rintro ⟨state, first, rfl⟩
        exact .inr (.inr ⟨state, fun trace => Nat.le_of_not_lt fun several => few ⟨trace, several⟩,
          first, rfl⟩)
      · rintro (⟨empty, _⟩ | ⟨trace, several, _⟩ | ⟨state, _, first, rfl⟩)
        · exact absurd empty nonempty
        · exact absurd ⟨trace, several⟩ few
        · exact ⟨state, first, rfl⟩

theorem transitionDefect?_eq_some {t : Transition} {detail : String} :
    a.transitionDefect? t = some detail ↔
      (a.size ≤ t.source ∧
        detail = "source " ++ stateLabel t.source ++ " is not a state of the automaton") ∨
      (t.source < a.size ∧ a.size ≤ t.target ∧
        detail = "target " ++ stateLabel t.target ++ " is not a state of the automaton") ∨
      (t.source < a.size ∧ t.target < a.size ∧ t.symbol ∉ a.alphabet ∧
        detail = "symbol `" ++ t.symbol ++ "` is not in the alphabet") := by
  unfold transitionDefect?
  by_cases source : t.source < a.size <;> by_cases target : t.target < a.size <;>
    by_cases symbol : t.symbol ∈ a.alphabet <;>
    simp [hasState, source, target, symbol, eq_comm, Nat.not_le_of_lt, Nat.le_of_not_lt]

theorem badTransition?_eq_some : a.badTransition? = some cause ↔ ∃ t detail,
    FirstOf a.transitions (fun t => ¬a.Runs t) t ∧ a.transitionDefect? t = some detail ∧
      cause = .badTransition (a.describe t) detail := by
  have runs (t : Transition) : a.transitionDefect? t = none ↔ a.Runs t := transitionDefect?_eq_none
  simp only [badTransition?, findSome?_eq_some_iff_firstOf, Option.map_eq_some_iff, ne_eq,
    Option.map_eq_none_iff, runs]
  grind

theorem violation?_of_named (named : a.Named) : a.violation? role =
    a.badInitial?.or ((a.badAccepting? role).or a.badTransition?) := by
  rw [violation?, badState?_eq_none.mpr named.states, badSymbol?_eq_none.mpr named.alphabet]
  rfl

theorem violation?_of_started (started : a.Started) :
    a.violation? role = (a.badAccepting? role).or a.badTransition? := by
  rw [violation?_of_named started.toNamed, badInitial?_eq_none.mpr started.initial, Option.none_or]

theorem violation?_of_ended (ended : a.Ended role) : a.violation? role = a.badTransition? := by
  rw [violation?_of_started ended.toStarted, Option.or_eq_right_of_none]
  exact badAccepting?_eq_none.mpr ⟨ended.someAccepting, ended.fewAccepting, ended.accepting⟩

theorem firstViolation_of_violation? (found : a.violation? role = some cause) :
    a.FirstViolation role cause := by
  simp only [violation?, Option.or_eq_some_iff] at found
  rcases found with bad | ⟨states, found⟩
  · obtain ⟨name, defect, first, why, rfl⟩ := badState?_eq_some.mp bad
    exact .stateName first why
  have states := badState?_eq_none.mp states
  rcases found with bad | ⟨alphabet, found⟩
  · obtain ⟨symbol, defect, first, why, rfl⟩ := badSymbol?_eq_some.mp bad
    exact .symbol states first why
  have named : a.Named := ⟨states, badSymbol?_eq_none.mp alphabet⟩
  rcases found with bad | ⟨initial, found⟩
  · rcases badInitial?_eq_some.mp bad with ⟨missing, rfl⟩ | ⟨state, initial, unknown, rfl⟩
    · exact .noInitial named missing
    · exact .unknownInitial named initial unknown
  have started : a.Started := ⟨named, badInitial?_eq_none.mp initial⟩
  rcases found with bad | ⟨accepting, bad⟩
  · rcases badAccepting?_eq_some.mp bad with
      ⟨missing, rfl⟩ | ⟨trace, several, rfl⟩ | ⟨state, few, first, rfl⟩
    · exact .noAccepting started missing
    · exact .severalAccepting started trace several
    · exact .unknownAccepting started few first
  obtain ⟨someAccepting, fewAccepting, accepting⟩ := badAccepting?_eq_none.mp accepting
  have ended : a.Ended role := ⟨started, someAccepting, fewAccepting, accepting⟩
  obtain ⟨t, detail, first, defect, rfl⟩ := badTransition?_eq_some.mp bad
  rcases transitionDefect?_eq_some.mp defect with
    ⟨unknown, rfl⟩ | ⟨source, unknown, rfl⟩ | ⟨source, target, unknown, rfl⟩
  · exact .source ended first unknown
  · exact .target ended first source unknown
  · exact .undeclared ended first source target unknown

theorem FirstViolation.violation? (first : a.FirstViolation role cause) :
    a.violation? role = some cause := by
  cases first with
  | stateName first why =>
    have bad := badState?_eq_some.mpr ⟨_, _, first, why, rfl⟩
    rw [Automaton.violation?, bad, Option.some_or]
  | symbol states first why =>
    have bad := badSymbol?_eq_some.mpr ⟨_, _, first, why, rfl⟩
    rw [Automaton.violation?, badState?_eq_none.mpr states, bad, Option.none_or, Option.some_or]
  | noInitial named missing =>
    have bad := badInitial?_eq_some.mpr (.inl ⟨missing, rfl⟩)
    rw [violation?_of_named named, bad, Option.some_or]
  | unknownInitial named initial unknown =>
    have bad := badInitial?_eq_some.mpr (.inr ⟨_, initial, unknown, rfl⟩)
    rw [violation?_of_named named, bad, Option.some_or]
  | noAccepting started missing =>
    have bad : a.badAccepting? role = _ := badAccepting?_eq_some.mpr (.inl ⟨missing, rfl⟩)
    rw [violation?_of_started started, bad, Option.some_or]
  | severalAccepting started trace several =>
    have bad := badAccepting?_eq_some.mpr (.inr (.inl ⟨trace, several, rfl⟩))
    rw [violation?_of_started started, bad, Option.some_or]
  | unknownAccepting started few first =>
    have bad := badAccepting?_eq_some.mpr (.inr (.inr ⟨_, few, first, rfl⟩))
    rw [violation?_of_started started, bad, Option.some_or]
  | source ended first unknown =>
    have defect := transitionDefect?_eq_some.mpr (.inl ⟨unknown, rfl⟩)
    rw [violation?_of_ended ended, badTransition?_eq_some.mpr ⟨_, _, first, defect, rfl⟩]
  | target ended first source unknown =>
    have defect := transitionDefect?_eq_some.mpr (.inr (.inl ⟨source, unknown, rfl⟩))
    rw [violation?_of_ended ended, badTransition?_eq_some.mpr ⟨_, _, first, defect, rfl⟩]
  | undeclared ended first source target unknown =>
    have defect := transitionDefect?_eq_some.mpr (.inr (.inr ⟨source, target, unknown, rfl⟩))
    rw [violation?_of_ended ended, badTransition?_eq_some.mpr ⟨_, _, first, defect, rfl⟩]

/-- The first violation is reported, and nothing else is. -/
theorem violation?_eq_some : a.violation? role = some cause ↔ a.FirstViolation role cause :=
  ⟨firstViolation_of_violation?, FirstViolation.violation?⟩

theorem fault?_eq_none {label : String} : a.fault? label role = none ↔ a.WellFormed role := by
  rw [fault?, Option.map_eq_none_iff, violation?_eq_none]

theorem fault?_eq_some {label : String} {fault : Fault} :
    a.fault? label role = some fault ↔
      ∃ cause, a.FirstViolation role cause ∧ fault = ⟨label, cause⟩ := by
  simp only [fault?, Option.map_eq_some_iff, violation?_eq_some, @eq_comm _ fault]

end Automaton

/-- Constraints that validation passes over. -/
structure ValidConstraints (constraints : List Constraint) : Prop where
  wellFormed : ∀ c ∈ constraints, c.automaton.WellFormed .constraint
  distinct : constraints.Pairwise fun c d => c.id ≠ d.id

/-- What is reported of the inputs of an alignment: the trace comes before the constraints, and a
constraint whose id an earlier one has is not looked into. -/
inductive FirstFault (trace : Automaton) (constraints : List Constraint) : Fault → Prop
  | trace {cause} (violation : trace.FirstViolation .trace cause) :
      FirstFault trace constraints ⟨trace.name, cause⟩
  | repeatedId {earlier c later} (valid : trace.WellFormed .trace)
      (order : constraints = earlier ++ c :: later) (passed : ValidConstraints earlier)
      (repeated : c.id ∈ earlier.map Constraint.id) :
      FirstFault trace constraints ⟨c.id.text, .collision c.id.text⟩
  | constraint {earlier c later cause} (valid : trace.WellFormed .trace)
      (order : constraints = earlier ++ c :: later) (passed : ValidConstraints earlier)
      (fresh : c.id ∉ earlier.map Constraint.id)
      (violation : c.automaton.FirstViolation .constraint cause) :
      FirstFault trace constraints ⟨c.id.text, cause⟩

theorem exists_split_cons {α : Type} {x : α} {xs : List α} {P : List α → α → Prop} :
    (∃ before y after, x :: xs = before ++ y :: after ∧ P before y) ↔
      P [] x ∨ ∃ before y after, xs = before ++ y :: after ∧ P (x :: before) y := by
  constructor
  · rintro ⟨before, y, after, whole, holds⟩
    cases before with
    | nil =>
      cases whole
      exact .inl holds
    | cons z before =>
      cases whole
      exact .inr ⟨before, y, after, rfl, holds⟩
  · rintro (holds | ⟨before, y, after, rfl, holds⟩)
    · exact ⟨[], x, xs, rfl, holds⟩
    · exact ⟨x :: before, y, after, rfl, holds⟩

/-- Of the checks of constraints, the first that fails is known by those before it, which pass. -/
theorem findSome?_constraintChecks {seen : List AutomatonId} {constraints : List Constraint}
    {fault : Fault} :
    (constraintChecks seen constraints).findSome? Check.fault? = some fault ↔
      ∃ earlier c later, constraints = earlier ++ c :: later ∧
        (∀ check ∈ constraintChecks seen earlier, check.fault? = none) ∧
        (c.id ∈ seen ++ earlier.map Constraint.id ∧ fault = ⟨c.id.text, .collision c.id.text⟩ ∨
          c.id ∉ seen ++ earlier.map Constraint.id ∧
            c.automaton.fault? c.id.text .constraint = some fault) := by
  induction constraints generalizing seen with
  | nil => simp [constraintChecks]
  | cons c cs ih =>
    have first (earlier : List Constraint) : constraintChecks seen (c :: earlier) =
        if c.id ∈ seen then .repeatedId c.id :: constraintChecks seen earlier
        else .automaton .constraint c.id.text c.automaton ::
          constraintChecks (c.id :: seen) earlier := rfl
    have fine : constraintChecks seen [] = [] := rfl
    rw [exists_split_cons, first]
    split
    next repeated =>
      simp only [first, repeated, if_true, List.findSome?_cons, Check.fault?, fine]
      simp [eq_comm, repeated]
    next fresh =>
      have moved (d : Constraint) (earlier : List Constraint) :
          d.id ∈ seen ++ (c :: earlier).map Constraint.id ↔
            d.id ∈ c.id :: seen ++ earlier.map Constraint.id := by
        simp only [List.cons_append, List.mem_cons, List.mem_append, List.map_cons]
        exact or_left_comm
      cases checked : c.automaton.fault? c.id.text .constraint with
      | some fault => simp [first, fresh, fine, Check.fault?, checked]
      | none =>
        simp only [first, fresh, fine, moved, if_false, List.findSome?_cons, Check.fault?, checked,
          ih, List.forall_mem_cons, List.map_nil, List.append_nil]
        simp

theorem constraintChecks_pass_iff {constraints : List Constraint} :
    (∀ check ∈ constraintChecks [] constraints, check.fault? = none) ↔
      ValidConstraints constraints := by
  rw [constraintChecks_pass]
  constructor
  · rintro ⟨_, wellFormed, distinct⟩
    exact ⟨wellFormed, distinct⟩
  · rintro ⟨wellFormed, distinct⟩
    exact ⟨by simp, wellFormed, distinct⟩

theorem inputFault?_eq_some {trace : Automaton} {constraints : List Constraint} {fault : Fault} :
    inputFault? trace constraints = some fault ↔
      trace.fault? trace.name .trace = some fault ∨ trace.WellFormed .trace ∧
        (constraintChecks [] constraints).findSome? Check.fault? = some fault := by
  have opened : inputFault? trace constraints = (trace.fault? trace.name .trace).or
      ((constraintChecks [] constraints).findSome? Check.fault?) := by
    simp only [inputFault?, inputChecks, List.findSome?_cons, Check.fault?]
    cases trace.fault? trace.name .trace <;> rfl
  rw [opened, Option.or_eq_some_iff, Automaton.fault?_eq_none]

/-- Inputs pass exactly if they are well formed, and otherwise the first fault is reported. -/
theorem inputFault?_exact (trace : Automaton) (constraints : List Constraint) :
    (inputFault? trace constraints = none ↔
      trace.WellFormed .trace ∧ ValidConstraints constraints) ∧
    ∀ fault, inputFault? trace constraints = some fault ↔ FirstFault trace constraints fault := by
  constructor
  · rw [inputFault?, inputChecks, List.findSome?_eq_none_iff, List.forall_mem_cons,
      constraintChecks_pass_iff]
    exact and_congr_left' Automaton.fault?_eq_none
  · intro fault
    rw [inputFault?_eq_some, findSome?_constraintChecks]
    simp only [constraintChecks_pass_iff, Automaton.fault?_eq_some, List.nil_append]
    constructor
    · rintro (⟨cause, violation, rfl⟩ | ⟨valid, earlier, c, later, order, passed,
        ⟨repeated, rfl⟩ | ⟨fresh, cause, violation, rfl⟩⟩)
      · exact .trace violation
      · exact .repeatedId valid order passed repeated
      · exact .constraint valid order passed fresh violation
    · intro first
      cases first with
      | trace violation => exact .inl ⟨_, violation, rfl⟩
      | repeatedId valid order passed repeated =>
        exact .inr ⟨valid, _, _, _, order, passed, .inl ⟨repeated, rfl⟩⟩
      | constraint valid order passed fresh violation =>
        exact .inr ⟨valid, _, _, _, order, passed, .inr ⟨fresh, _, violation, rfl⟩⟩

end AlignPlan
