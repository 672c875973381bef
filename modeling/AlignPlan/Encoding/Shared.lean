import AlignPlan.Encoding.Inputs

/-! The shared encoding: constraints are objects, and all of them draw their states from one
pool, where a state stands at its position of declaration. The goal asks every constraint to be
in accepting states only, so no joint state is needed. -/
namespace AlignPlan.Encoding.Shared

open Planning

def activityType : String := "activity"

def automatonType : String := "automaton"

def vocabulary : Vocabulary where
  activityType := activityType
  traceCurrent := "cur_state_trace"
  traceTransition := "trace_trans"
  advanceConstraints :=
    broadcast [.of ["?a"] automatonType, .of ["?s1", "?s2"] automatonStateType]
      (.atom "cur_state" ["?a", "?s1"]) (.atom "automaton_trans" ["?a", "?s1", "?e", "?s2"])
      (.atom "cur_state" ["?a", "?s2"])

def automatonInState : List TypedList :=
  [.of ["?a"] automatonType, .of ["?s"] automatonStateType]

def domain (options : Options) : Domain where
  name := domainName
  requirements := requirements
  types :=
    [.of [traceStateType, automatonStateType] stateType,
     .untyped [activityType, automatonType]]
  predicates :=
    [⟨"trace_trans", vocabulary.traceStep⟩,
     ⟨"cur_state", automatonInState⟩,
     ⟨"cur_state_trace", [.of ["?t"] traceStateType]⟩,
     ⟨"automaton_trans",
       [.of ["?a"] automatonType, .of ["?s1"] automatonStateType, .of ["?e"] activityType,
        .of ["?s2"] automatonStateType]⟩,
     ⟨"final_state", automatonInState⟩]
  functions := [totalCost]
  actions := [vocabulary.sync, vocabulary.add options.addPolicy, vocabulary.del]

/-- The pool has room for the largest constraint. -/
def poolSize (constraints : List Constraint) : Nat :=
  (constraints.map fun c => c.automaton.size).foldl max 0

def registrations (trace : Automaton) (constraints : List Constraint) : List Registration :=
  (constraints.map fun c => ⟨.automaton c.id, automatonType, c.id.text⟩) ++
    traceRegistrations trace ++
    ((List.range (poolSize constraints)).map fun index =>
      ⟨.pooledState index, automatonStateType, trace.name⟩) ++
    activityRegistrations trace constraints activityType

def automatonObject (c : Constraint) : String := (ObjectName.automaton c.id).render

def pooled (state : Nat) : String := (ObjectName.pooledState state).render

def constraintFacts (c : Constraint) : List Formula :=
  .atom "cur_state" [automatonObject c, pooled c.automaton.start] ::
    (c.automaton.accepting.map fun state =>
      .atom "final_state" [automatonObject c, pooled state]) ++
    (c.automaton.transitions.map fun t =>
      .atom "automaton_trans" [automatonObject c, pooled t.source, t.symbol, pooled t.target])

def init (trace : Automaton) (constraints : List Constraint) : List Formula :=
  [.value totalCost 0, .atom "cur_state_trace" [trace.traceObject trace.start]] ++
    traceFacts trace "trace_trans" ++ constraints.flatMap constraintFacts

def goal (trace : Automaton) : List Formula :=
  [.atom "cur_state_trace" [trace.traceObject trace.firstAccepting],
   .forall automatonInState
     (.imply (.atom "cur_state" ["?a", "?s"]) (.atom "final_state" ["?a", "?s"]))]

/-- What is logged once the objects are known. -/
def record (table : ObjectTable) (constraints : List Constraint) : Log.Record :=
  ⟨.debug, .shared, "shared encoding: " ++ Decimal.render table.size ++ " objects, pool of " ++
    Decimal.render (poolSize constraints) ++ " states for " ++
    Decimal.render constraints.length ++ " automata"⟩

end AlignPlan.Encoding.Shared
