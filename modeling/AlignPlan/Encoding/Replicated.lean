import AlignPlan.Encoding.Inputs

/-! The replicated encoding: every state of every constraint is an object of its own. A
constraint with several accepting states gets one more object that joins them, reached by a
last step once the trace is done. -/
namespace AlignPlan.Encoding.Replicated

open Planning

def actType : String := "act"

def dummyActType : String := "dummy_act"

/-- The move of all constraints along the transitions held by `predicate`. -/
def advance (predicate activity : String) : Formula :=
  broadcast [.of ["?s1", "?s2"] automatonStateType]
    (.atom "cur_state" ["?s1"]) (.atom predicate ["?s1", activity, "?s2"])
    (.atom "cur_state" ["?s2"])

def vocabulary : Vocabulary := ⟨actType, "cur_state", "trace", advance "automaton" "?e"⟩

/-- Constraints in an accepting state move to their joint accepting state. -/
def gotoGoal (cost : GotoGoalCost) : Action where
  name := "goto-goal"
  parameters := [.of ["?t1"] traceStateType, .of ["?de"] dummyActType]
  precondition := .and [.atom "cur_state" ["?t1"], .atom "final_state" ["?t1"]]
  effect :=
    .and ((if 0 < cost.amount then [charge cost.amount] else []) ++
      [advance "dummy_trans" "?de"])

def domain (options : Options) : Domain where
  name := domainName
  requirements := requirements
  types :=
    [.of [traceStateType, automatonStateType] stateType, .of [actType, dummyActType] "activity"]
  predicates :=
    [⟨"trace", vocabulary.traceStep⟩,
     ⟨"cur_state", [.of ["?s"] stateType]⟩,
     ⟨"automaton",
       [.of ["?s1"] automatonStateType, .of ["?e"] actType, .of ["?s2"] automatonStateType]⟩,
     ⟨"final_state", [.of ["?s"] stateType]⟩,
     ⟨"dummy_trans",
       [.of ["?s1"] automatonStateType, .of ["?de"] dummyActType,
        .of ["?s2"] automatonStateType]⟩]
  functions := [totalCost]
  actions :=
    [vocabulary.sync, vocabulary.add options.addPolicy, vocabulary.del,
     gotoGoal options.gotoGoalCost]

def needsJoint (c : Constraint) : Bool := 1 < c.automaton.accepting.length

def constraintRegistrations (c : Constraint) : List Registration :=
  (c.automaton.states.map fun state =>
    ⟨.automatonState c.id state, automatonStateType, c.id.text⟩) ++
  (if needsJoint c then [⟨.jointAccept c.id, automatonStateType, c.id.text⟩] else [])

def registrations (trace : Automaton) (constraints : List Constraint) : List Registration :=
  traceRegistrations trace ++ constraints.flatMap constraintRegistrations ++
    activityRegistrations trace constraints actType ++
    [⟨.dummyActivity, dummyActType, trace.name⟩]

def stateObject (c : Constraint) (state : Nat) : String :=
  (ObjectName.automatonState c.id (c.automaton.stateName state)).render

def jointObject (c : Constraint) : String := (ObjectName.jointAccept c.id).render

/-- The object a constraint has to end in. -/
def target (c : Constraint) : String :=
  match c.automaton.accepting with
  | [single] => stateObject c single
  | _ => jointObject c

def jointFacts (c : Constraint) : List Formula :=
  match c.automaton.accepting with
  | [_] => []
  | accepting => accepting.map fun state =>
    .atom "dummy_trans" [stateObject c state, dummyName, jointObject c]

def constraintFacts (c : Constraint) : List Formula :=
  .atom "cur_state" [stateObject c c.automaton.start] ::
    (c.automaton.transitions.map fun t =>
      .atom "automaton" [stateObject c t.source, t.symbol, stateObject c t.target]) ++
    jointFacts c

def init (trace : Automaton) (constraints : List Constraint) : List Formula :=
  [.value totalCost 0,
   .atom "cur_state" [trace.traceObject trace.start],
   .atom "final_state" [trace.traceObject trace.firstAccepting]] ++
  traceFacts trace "trace" ++ constraints.flatMap constraintFacts

def goal (trace : Automaton) (constraints : List Constraint) : List Formula :=
  [.atom "final_state" [trace.traceObject trace.firstAccepting],
   .atom "cur_state" [trace.traceObject trace.firstAccepting]] ++
  constraints.map fun c => .atom "cur_state" [target c]

/-- What is logged once the objects are known. -/
def record (table : ObjectTable) : Log.Record :=
  ⟨.debug, .replicated, "replicated encoding: " ++ Decimal.render table.size ++ " objects, " ++
    Decimal.render (table.countOfType automatonStateType) ++ " automaton states"⟩

end AlignPlan.Encoding.Replicated
