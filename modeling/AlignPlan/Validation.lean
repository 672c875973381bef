import AlignPlan.Constraint
import AlignPlan.Log
import AlignPlan.Name

/-! Well-formedness of the automata of one alignment. Everything is checked before any text is
produced, in a fixed order, and the first violation is the one reported. -/
namespace AlignPlan

/-- A trace has stricter rules of shape than a constraint. -/
inductive Role
  | trace | constraint
  deriving DecidableEq

def Role.label : Role → String
  | .trace => "trace"
  | .constraint => "constraint"

namespace Automaton

def badState? (a : Automaton) : Option Fault.Cause :=
  a.states.findSome? fun state =>
    (Name.defect? state).map fun defect => .badName state defect.message

def badSymbol? (a : Automaton) : Option Fault.Cause :=
  a.alphabet.findSome? fun symbol =>
    (Name.activityDefect? symbol).map fun defect => .badName symbol defect.message

def badInitial? (a : Automaton) : Option Fault.Cause :=
  match a.initial with
  | none => some .noInitialState
  | some state =>
    if a.hasState state then none else some (.unknownState "initial" (stateLabel state))

def badAccepting? (a : Automaton) (role : Role) : Option Fault.Cause :=
  if a.accepting.isEmpty then some .noAcceptingState
  else if role = .trace ∧ 1 < a.accepting.length then
    some (.tooManyAcceptingStates a.accepting.length)
  else
    (a.accepting.find? fun state => !a.hasState state).map fun state =>
      .unknownState "accept" (stateLabel state)

/-- The source counts before the target, and both before the symbol. -/
def transitionDefect? (a : Automaton) (t : Transition) : Option String :=
  if !a.hasState t.source then
    some ("source " ++ stateLabel t.source ++ " is not a state of the automaton")
  else if !a.hasState t.target then
    some ("target " ++ stateLabel t.target ++ " is not a state of the automaton")
  else if !a.alphabet.contains t.symbol then
    some ("symbol `" ++ t.symbol ++ "` is not in the alphabet")
  else none

def badTransition? (a : Automaton) : Option Fault.Cause :=
  a.transitions.findSome? fun t =>
    (a.transitionDefect? t).map fun detail => .badTransition (a.describe t) detail

/-- The first violation within one automaton. -/
def violation? (a : Automaton) (role : Role) : Option Fault.Cause :=
  a.badState?.or <| a.badSymbol?.or <| a.badInitial?.or <|
    (a.badAccepting? role).or a.badTransition?

/-- `label` is the name the automaton is reported under. -/
def fault? (a : Automaton) (label : String) (role : Role) : Option Fault :=
  (a.violation? role).map fun cause => ⟨label, cause⟩

/-- What is logged about an automaton that passes. -/
def passRecord (a : Automaton) (label : String) (role : Role) : Log.Record :=
  ⟨.debug, .validation, role.label ++ " automaton `" ++ label ++ "` ok: " ++
    Decimal.render a.size ++ " states, " ++ Decimal.render a.alphabet.length ++ " symbols, " ++
    Decimal.render a.transitions.length ++ " transitions"⟩

end Automaton

/-- One check of the inputs of an alignment. -/
inductive Check
  | automaton (role : Role) (label : String) (a : Automaton)
  | repeatedId (id : AutomatonId)

def Check.fault? : Check → Option Fault
  | .automaton role label a => a.fault? label role
  | .repeatedId id => some ⟨id.text, .collision id.text⟩

def Check.passRecord? : Check → Option Log.Record
  | .automaton role label a => some (a.passRecord label role)
  | .repeatedId _ => none

/-- A constraint whose id was seen before is not looked into. -/
def constraintChecks : List AutomatonId → List Constraint → List Check
  | _, [] => []
  | seen, c :: cs =>
    if c.id ∈ seen then .repeatedId c.id :: constraintChecks seen cs
    else .automaton .constraint c.id.text c.automaton :: constraintChecks (c.id :: seen) cs

/-- All checks in the order they are made: the trace, then the constraints as given. -/
def inputChecks (trace : Automaton) (constraints : List Constraint) : List Check :=
  .automaton .trace trace.name trace :: constraintChecks [] constraints

def inputFault? (trace : Automaton) (constraints : List Constraint) : Option Fault :=
  (inputChecks trace constraints).findSome? Check.fault?

/-- The records of the checks before the first that fails. -/
def validationLog (trace : Automaton) (constraints : List Constraint) : List Log.Record :=
  ((inputChecks trace constraints).takeWhile fun c => c.fault?.isNone).filterMap
    Check.passRecord?

end AlignPlan
