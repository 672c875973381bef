import AlignPlan.Encoding.Replicated
import AlignPlan.Encoding.Shared
import AlignPlan.Planning.Layout
import AlignPlan.Validation

/-! A trace and its constraints as a planning task. An encoding exists only for automata that
are valid and whose objects have names of their own, so no text is produced for others. The
domain depends on the options alone. -/
namespace AlignPlan

open Planning

/-- `constraints` stand in canonical order. -/
structure Encoding where
  strategy : Strategy
  options : Options
  trace : Automaton
  constraints : List Constraint
  table : ObjectTable

/-- The written task. -/
structure Compiled where
  domain : Option String
  problem : String
  deriving DecidableEq

namespace Strategy

def registrations (s : Strategy) (trace : Automaton) (constraints : List Constraint) :
    List Registration :=
  match s with
  | .replicated => Encoding.Replicated.registrations trace constraints
  | .shared => Encoding.Shared.registrations trace constraints

def domain (s : Strategy) (options : Options) : Domain :=
  match s with
  | .replicated => Encoding.Replicated.domain options
  | .shared => Encoding.Shared.domain options

/-- The shared pool takes its size from the constraints. -/
def needsConstraint (s : Strategy) : Bool := s == .shared

end Strategy

namespace Encoding

/-- The objects of valid automata, or the clash that keeps them from being named. -/
def register (strategy : Strategy) (trace : Automaton) (constraints : List Constraint) :
    Except Clash ObjectTable :=
  ObjectTable.empty.addAll (strategy.registrations trace (canonicalOrder constraints))

def of (strategy : Strategy) (options : Options) (trace : Automaton)
    (constraints : List Constraint) : Except Fault Encoding :=
  match inputFault? trace constraints with
  | some fault => .error fault
  | none =>
    if strategy.needsConstraint && constraints.isEmpty then
      .error ⟨trace.name, .noConstraint⟩
    else
      match register strategy trace constraints with
      | .error clash => .error clash.fault
      | .ok table => .ok ⟨strategy, options, trace, canonicalOrder constraints, table⟩

def domain (e : Encoding) : Domain := e.strategy.domain e.options

def init (e : Encoding) : List Formula :=
  match e.strategy with
  | .replicated => Replicated.init e.trace e.constraints
  | .shared => Shared.init e.trace e.constraints

def goal (e : Encoding) : List Formula :=
  match e.strategy with
  | .replicated => Replicated.goal e.trace e.constraints
  | .shared => Shared.goal e.trace

def problem (e : Encoding) (traceId : Nat) : Problem where
  name := problemName traceId
  domain := domainName
  objects := e.table.objects
  init := e.init
  goal := e.goal
  metric := totalCost

/-- The domain is left out where it is being reused. -/
def compile (e : Encoding) (traceId : Nat) : Compiled where
  domain := if e.options.reuseDomain then none else some e.domain.render
  problem := (e.problem traceId).render

/-- What is logged while an encoding is made or refused. -/
def log (strategy : Strategy) (trace : Automaton) (constraints : List Constraint) :
    List Log.Record :=
  let opening : Log.Record :=
    ⟨.info, .encoding, "Encoding trace with " ++ Decimal.render trace.size ++
      " states against " ++ Decimal.render constraints.length ++ " constraint automata (" ++
      strategy.label ++ ")"⟩
  let closing :=
    if (inputFault? trace constraints).isSome ||
        (strategy.needsConstraint && constraints.isEmpty) then []
    else
      match register strategy trace constraints, strategy with
      | .error clash, _ => [clash.record]
      | .ok table, .replicated => [Replicated.record table]
      | .ok table, .shared => [Shared.record table constraints]
  opening :: validationLog trace constraints ++ closing

end Encoding

end AlignPlan
