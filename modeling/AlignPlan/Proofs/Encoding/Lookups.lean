import AlignPlan.Proofs.Encoding.Shared

/-! The planning problem with every look-up checked: of the initial and accepting states, of the
name behind a state, and of the object behind a position in the pool. Nothing is missing for an
encoding that was made, so the problem is the one without checks. -/
namespace AlignPlan

open Planning

/-- Elements that are all there are collected. -/
theorem mapM_eq_some {α β : Type} {xs : List α} {f : α → Option β} {g : α → β}
    (each : ∀ x ∈ xs, f x = some (g x)) : xs.mapM f = some (xs.map g) := by
  induction xs with
  | nil => rfl
  | cons x xs ih =>
    obtain ⟨first, others⟩ := List.forall_mem_cons.mp each
    simp [first, ih others]

namespace Automaton

def traceObject? (a : Automaton) (state : Nat) : Option String :=
  (a.stateName? state).map fun name => (ObjectName.traceState name).render

variable {a : Automaton} {role : Role} {state : Nat}

theorem stateName?_eq_some (bound : state < a.size) :
    a.stateName? state = some (a.stateName state) := by
  simp [stateName, stateName?, List.getElem?_eq_getElem bound]

theorem traceObject?_eq_some (bound : state < a.size) :
    a.traceObject? state = some (a.traceObject state) := by
  rw [traceObject?, stateName?_eq_some bound]
  rfl

theorem WellFormed.initial_eq_some (valid : a.WellFormed role) : a.initial = some a.start := by
  obtain ⟨state, initial, _⟩ := valid.initial
  simp [start, initial]

end Automaton

namespace Encoding

/-- The fact of a transition of which both ends are found. -/
def transitionFact? (object? : Nat → Option String) (predicate : String) (before : List String)
    (t : Transition) : Option Formula := do
  let source ← object? t.source
  let target ← object? t.target
  return .atom predicate (before ++ [source, t.symbol, target])

namespace Replicated

def stateObject? (c : Constraint) (state : Nat) : Option String :=
  (c.automaton.stateName? state).map fun name => (ObjectName.automatonState c.id name).render

def jointFact? (c : Constraint) (state : Nat) : Option Formula := do
  return .atom "dummy_trans" [← stateObject? c state, dummyName, jointObject c]

def jointFacts? (c : Constraint) : Option (List Formula) :=
  match c.automaton.accepting with
  | [_] => some []
  | accepting => accepting.mapM (jointFact? c)

def constraintFacts? (c : Constraint) : Option (List Formula) := do
  let start ← c.automaton.initial.bind (stateObject? c)
  let steps ← c.automaton.transitions.mapM (transitionFact? (stateObject? c) "automaton" [])
  let joins ← jointFacts? c
  return .atom "cur_state" [start] :: steps ++ joins

def target? (c : Constraint) : Option String :=
  match c.automaton.accepting with
  | [single] => stateObject? c single
  | _ => some (jointObject c)

def init? (trace : Automaton) (constraints : List Constraint) : Option (List Formula) := do
  let start ← trace.initial.bind trace.traceObject?
  let done ← trace.accepting.head?.bind trace.traceObject?
  let steps ← trace.transitions.mapM (transitionFact? trace.traceObject? "trace" [])
  let facts ← constraints.mapM constraintFacts?
  return [.value totalCost 0, .atom "cur_state" [start], .atom "final_state" [done]] ++ steps ++
    facts.flatten

def goal? (trace : Automaton) (constraints : List Constraint) : Option (List Formula) := do
  let done ← trace.accepting.head?.bind trace.traceObject?
  let targets ← constraints.mapM target?
  return [.atom "final_state" [done], .atom "cur_state" [done]] ++
    targets.map fun target => .atom "cur_state" [target]

end Replicated

namespace Shared

/-- The object at a position of a pool of a given size. -/
def pooled? (size state : Nat) : Option String := if state < size then some (pooled state) else none

def finalFact? (size : Nat) (c : Constraint) (state : Nat) : Option Formula := do
  return .atom "final_state" [automatonObject c, ← pooled? size state]

def constraintFacts? (size : Nat) (c : Constraint) : Option (List Formula) := do
  let start ← c.automaton.initial.bind (pooled? size)
  let finals ← c.automaton.accepting.mapM (finalFact? size c)
  let steps ← c.automaton.transitions.mapM
    (transitionFact? (pooled? size) "automaton_trans" [automatonObject c])
  return .atom "cur_state" [automatonObject c, start] :: finals ++ steps

def init? (trace : Automaton) (constraints : List Constraint) : Option (List Formula) := do
  let start ← trace.initial.bind trace.traceObject?
  let steps ← trace.transitions.mapM (transitionFact? trace.traceObject? "trace_trans" [])
  let facts ← constraints.mapM (constraintFacts? (poolSize constraints))
  return [.value totalCost 0, .atom "cur_state_trace" [start]] ++ steps ++ facts.flatten

def goal? (trace : Automaton) : Option (List Formula) := do
  let done ← trace.accepting.head?.bind trace.traceObject?
  return [.atom "cur_state_trace" [done],
    .forall automatonInState
      (.imply (.atom "cur_state" ["?a", "?s"]) (.atom "final_state" ["?a", "?s"]))]

end Shared

def init? (e : Encoding) : Option (List Formula) :=
  match e.strategy with
  | .replicated => Replicated.init? e.trace e.constraints
  | .shared => Shared.init? e.trace e.constraints

def goal? (e : Encoding) : Option (List Formula) :=
  match e.strategy with
  | .replicated => Replicated.goal? e.trace e.constraints
  | .shared => Shared.goal? e.trace

/-- The problem, if nothing that is looked up is missing. -/
def problem? (e : Encoding) (traceId : Nat) : Option Problem := do
  let init ← e.init?
  let goal ← e.goal?
  return { name := problemName traceId, domain := domainName, objects := e.table.objects, init,
           goal, metric := totalCost }

/-! ### Nothing is missing -/

theorem transitionFacts?_eq_some {a : Automaton} {role : Role} (valid : a.WellFormed role)
    {object? : Nat → Option String} {object : Nat → String}
    (found : ∀ state < a.size, object? state = some (object state)) (predicate : String)
    (before : List String) : a.transitions.mapM (transitionFact? object? predicate before) =
      some (a.transitions.map fun t =>
        .atom predicate (before ++ [object t.source, t.symbol, object t.target])) := by
  apply mapM_eq_some
  intro t taken
  obtain ⟨source, target, _⟩ := valid.transitions t taken
  simp [transitionFact?, found _ source, found _ target]

namespace Replicated

variable {c : Constraint}

theorem stateObject?_eq_some {state : Nat} (bound : state < c.automaton.size) :
    stateObject? c state = some (stateObject c state) := by
  rw [stateObject?, Automaton.stateName?_eq_some bound]
  rfl

theorem jointFacts?_eq_some (valid : c.automaton.WellFormed .constraint) :
    jointFacts? c = some (jointFacts c) := by
  have each : c.automaton.accepting.mapM (jointFact? c) =
      some (c.automaton.accepting.map fun state =>
        .atom "dummy_trans" [stateObject c state, dummyName, jointObject c]) := by
    apply mapM_eq_some
    intro state member
    simp [jointFact?, stateObject?_eq_some (valid.accepting state member)]
  unfold jointFacts? jointFacts
  match c.automaton.accepting, each with
  | [], each => exact each
  | [_], _ => rfl
  | _ :: _ :: _, each => exact each

theorem constraintFacts?_eq_some (valid : c.automaton.WellFormed .constraint) :
    constraintFacts? c = some (constraintFacts c) := by
  have start : c.automaton.initial.bind (stateObject? c) =
      some (stateObject c c.automaton.start) := by
    rw [valid.initial_eq_some, Option.bind_some, stateObject?_eq_some valid.start_lt]
  have steps := transitionFacts?_eq_some valid (fun _ => stateObject?_eq_some) "automaton" []
  simp [constraintFacts?, constraintFacts, start, steps, jointFacts?_eq_some valid]

theorem target?_eq_some (valid : c.automaton.WellFormed .constraint) :
    target? c = some (target c) := by
  unfold target? target
  match c.automaton.accepting, valid.accepting with
  | [], _ => rfl
  | [_], within => exact stateObject?_eq_some (within _ (List.mem_singleton_self _))
  | _ :: _ :: _, _ => rfl

end Replicated

namespace Shared

theorem size_le_poolSize {constraints : List Constraint} {c : Constraint}
    (member : c ∈ constraints) : c.automaton.size ≤ poolSize constraints :=
  Nat.le_of_not_lt fun larger => Nat.lt_irrefl _ (lt_poolSize.mpr ⟨c, member, larger⟩)

theorem constraintFacts?_eq_some {size : Nat} {c : Constraint}
    (valid : c.automaton.WellFormed .constraint) (room : c.automaton.size ≤ size) :
    constraintFacts? size c = some (constraintFacts c) := by
  have found : ∀ state < c.automaton.size, pooled? size state = some (pooled state) :=
    fun state bound => if_pos (Nat.lt_of_lt_of_le bound room)
  have start : c.automaton.initial.bind (pooled? size) = some (pooled c.automaton.start) := by
    rw [valid.initial_eq_some, Option.bind_some, found _ valid.start_lt]
  have finals : c.automaton.accepting.mapM (finalFact? size c) =
      some (c.automaton.accepting.map fun state =>
        .atom "final_state" [automatonObject c, pooled state]) := by
    apply mapM_eq_some
    intro state member
    simp [finalFact?, found state (valid.accepting state member)]
  have steps := transitionFacts?_eq_some valid found "automaton_trans" [automatonObject c]
  simp [constraintFacts?, constraintFacts, start, finals, steps]

end Shared

variable {e : Encoding}

theorem Accepted.problem?_eq_some (valid : e.Accepted) (traceId : Nat) :
    e.problem? traceId = some (e.problem traceId) := by
  have start : e.trace.initial.bind e.trace.traceObject? =
      some (e.trace.traceObject e.trace.start) := by
    rw [valid.trace.initial_eq_some, Option.bind_some,
      Automaton.traceObject?_eq_some valid.trace.start_lt]
  have done : e.trace.accepting.head?.bind e.trace.traceObject? =
      some (e.trace.traceObject e.trace.firstAccepting) := by
    rw [valid.trace.accepting_trace, List.head?_cons, Option.bind_some,
      Automaton.traceObject?_eq_some valid.trace.firstAccepting_lt]
  have steps (predicate : String) := transitionFacts?_eq_some valid.trace
    (fun _ => Automaton.traceObject?_eq_some) predicate []
  cases strategy : e.strategy with
  | replicated =>
    have facts := mapM_eq_some fun c member =>
      Replicated.constraintFacts?_eq_some (valid.constraints c member)
    have targets := mapM_eq_some fun c member =>
      Replicated.target?_eq_some (valid.constraints c member)
    simp [problem?, init?, goal?, problem, init, goal, strategy, Replicated.init?,
      Replicated.goal?, Replicated.init, Replicated.goal, start, done, steps, facts, targets,
      traceFacts, List.flatMap_def]
  | shared =>
    have facts := mapM_eq_some fun c member =>
      Shared.constraintFacts?_eq_some (valid.constraints c member) (Shared.size_le_poolSize member)
    simp [problem?, init?, goal?, problem, init, goal, strategy, Shared.init?,
      Shared.goal?, Shared.init, Shared.goal, start, done, steps, facts,
      traceFacts, List.flatMap_def]

end Encoding

end AlignPlan
