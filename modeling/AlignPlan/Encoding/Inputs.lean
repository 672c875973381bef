import AlignPlan.Constraint
import AlignPlan.Encoding.Steps
import AlignPlan.Objects

/-! What both encodings read off their automata. The functions on states and ends are meant for
automata that passed validation, which have what is looked up. -/
namespace AlignPlan

namespace Automaton

/-- The name of a state; the empty text stands for a state the automaton does not have. -/
def stateName (a : Automaton) (state : Nat) : String := (a.stateName? state).getD ""

def start (a : Automaton) : Nat := a.initial.getD 0

def firstAccepting (a : Automaton) : Nat := a.accepting.headD 0

def traceObject (a : Automaton) (state : Nat) : String :=
  (ObjectName.traceState (a.stateName state)).render

end Automaton

namespace Encoding

/-- The activities of a trace and its constraints, each at its first occurrence. -/
def activities (trace : Automaton) (constraints : List Constraint) : List String :=
  distinct (trace.alphabet ++ constraints.flatMap fun c => c.automaton.alphabet)

def traceRegistrations (trace : Automaton) : List Registration :=
  trace.states.map fun state => ⟨.traceState state, traceStateType, trace.name⟩

/-- Activities are charged to the trace, whichever automaton brought them in. -/
def activityRegistrations (trace : Automaton) (constraints : List Constraint)
    (type : String) : List Registration :=
  (activities trace constraints).map fun symbol => ⟨.activity symbol, type, trace.name⟩

/-- The transitions of the trace as facts of a predicate. -/
def traceFacts (trace : Automaton) (predicate : String) : List Planning.Formula :=
  trace.transitions.map fun t =>
    .atom predicate [trace.traceObject t.source, t.symbol, trace.traceObject t.target]

end Encoding

end AlignPlan
