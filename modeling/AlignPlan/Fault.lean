import AlignPlan.Text.Decimal

/-! Why automata cannot be encoded. Every fault names the automaton it was found in. -/
namespace AlignPlan

inductive Fault.Cause
  | noAcceptingState
  | tooManyAcceptingStates (count : Nat)
  /-- Two automata have one id, or two objects one name. -/
  | collision (name : String)
  | badTransition (transition detail : String)
  | unknownState (role state : String)
  | noInitialState
  | badName (name reason : String)
  /-- The pool of shared states is sized from the constraints. -/
  | noConstraint
  deriving DecidableEq

structure Fault where
  automaton : String
  cause : Fault.Cause
  deriving DecidableEq

def Fault.Cause.message : Fault.Cause → String
  | .noAcceptingState => "automaton has no accept state"
  | .tooManyAcceptingStates count =>
    "trace automaton has " ++ Decimal.render count ++
      " accept states, exactly one is supported"
  | .collision name => "identifier `" ++ name ++ "` is used more than once"
  | .badTransition transition detail =>
    "malformed transition `" ++ transition ++ "`: " ++ detail
  | .unknownState role state =>
    role ++ " state `" ++ state ++ "` is not a state of the automaton"
  | .noInitialState => "automaton has no initial state"
  | .badName name reason => "invalid name `" ++ name ++ "`: " ++ reason
  | .noConstraint => "at least one constraint automaton is required"

def Fault.message (f : Fault) : String :=
  "invalid automaton `" ++ f.automaton ++ "`: " ++ f.cause.message

end AlignPlan
