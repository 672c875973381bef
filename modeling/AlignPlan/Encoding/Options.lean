/-! The choices that a planning encoding leaves open, with their names on the command line. -/
namespace AlignPlan

/-- How constraint states become planning objects: one object for each state of each
constraint, or one pool of objects that all constraints draw from. -/
inductive Strategy
  | replicated | shared
  deriving DecidableEq

/-- Which activities a step may insert: any, or only one that labels a trace transition out of
the current trace state. -/
inductive AddPolicy
  | unconstrained | traceGuarded
  deriving DecidableEq

/-- What the step into the joint accepting states costs. -/
inductive GotoGoalCost
  | free | unit
  deriving DecidableEq

def GotoGoalCost.amount : GotoGoalCost → Nat
  | .free => 0
  | .unit => 1

/-- With `reuseDomain` the caller has the domain already and gets the problem alone. -/
structure Options where
  addPolicy : AddPolicy
  gotoGoalCost : GotoGoalCost
  reuseDomain : Bool
  deriving DecidableEq

def Strategy.all : List Strategy := [.replicated, .shared]

def Strategy.label : Strategy → String
  | .replicated => "replicated"
  | .shared => "shared"

def AddPolicy.all : List AddPolicy := [.unconstrained, .traceGuarded]

def AddPolicy.label : AddPolicy → String
  | .unconstrained => "unconstrained"
  | .traceGuarded => "trace-guarded"

def GotoGoalCost.all : List GotoGoalCost := [.free, .unit]

def GotoGoalCost.label : GotoGoalCost → String
  | .free => "free"
  | .unit => "unit"

/-- The choice of a given label among `choices`; letter case of ASCII letters counts unless it
is to be ignored. -/
def chosen? {α : Type} (choices : List α) (label : α → String) (text : String)
    (ignoreCase : Bool) : Option α :=
  let fold (s : String) : String := if ignoreCase then s.map Char.toLower else s
  choices.find? fun c => fold (label c) == fold text

def invalidChoice (text : String) : String := "invalid variant: " ++ text

end AlignPlan
