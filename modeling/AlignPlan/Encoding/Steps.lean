import AlignPlan.Encoding.Options
import AlignPlan.Planning.Task
import AlignPlan.Text.Decimal

/-! The steps that every encoding offers a planner: take the next trace transition with its
activity, insert an activity, or skip a trace transition. An encoding says which predicates
hold the trace and how its constraints move. -/
namespace AlignPlan.Encoding

open Planning

def domainName : String := "alignment"

def totalCost : String := "total-cost"

def requirements : List String :=
  [":typing", ":disjunctive-preconditions", ":conditional-effects",
   ":universal-preconditions", ":action-costs"]

def traceStateType : String := "trace_state"

def automatonStateType : String := "automaton_state"

def stateType : String := "state"

def charge (amount : Nat) : Formula := .increase totalCost amount

/-- Whatever is `current` and has a transition moves to its target; all else stays. -/
def broadcast (quantified : List TypedList) (current transition next : Formula) : Formula :=
  .forall quantified (.when (.and [current, transition]) (.and [.not current, next]))

structure Vocabulary where
  activityType : String
  /-- The current trace state. -/
  traceCurrent : String
  /-- The transitions of the trace. -/
  traceTransition : String
  /-- The move of all constraints on the activity `?e`. -/
  advanceConstraints : Formula

namespace Vocabulary

def traceStep (v : Vocabulary) : List TypedList :=
  [.of ["?t1"] traceStateType, .of ["?e"] v.activityType, .of ["?t2"] traceStateType]

def onTraceStep (v : Vocabulary) : Formula :=
  .and [.atom v.traceCurrent ["?t1"], .atom v.traceTransition ["?t1", "?e", "?t2"]]

def advanceTrace (v : Vocabulary) : List Formula :=
  [.not (.atom v.traceCurrent ["?t1"]), .atom v.traceCurrent ["?t2"]]

/-- The trace and the constraints move together, for free. -/
def sync (v : Vocabulary) : Action where
  name := "sync"
  parameters := v.traceStep
  precondition := v.onTraceStep
  effect := .and (v.advanceTrace ++ [v.advanceConstraints])

/-- The constraints move alone. -/
def add (v : Vocabulary) (policy : AddPolicy) : Action where
  name := "add"
  parameters :=
    match policy with
    | .unconstrained => [.of ["?e"] v.activityType]
    | .traceGuarded => v.traceStep
  precondition :=
    match policy with
    | .unconstrained => .and []
    | .traceGuarded => v.onTraceStep
  effect := .and [charge 1, v.advanceConstraints]

/-- The trace moves alone. -/
def del (v : Vocabulary) : Action where
  name := "del"
  parameters := v.traceStep
  precondition := v.onTraceStep
  effect := .and (charge 1 :: v.advanceTrace)

end Vocabulary

/-- The problem that aligns the trace of a given number. -/
def problemName (traceId : Nat) : String := "p-trace-" ++ Decimal.render traceId

end AlignPlan.Encoding
