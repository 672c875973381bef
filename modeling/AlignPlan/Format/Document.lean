import AlignPlan.Constraint
import AlignPlan.Format.Grammar
import AlignPlan.Log

/-! The traces and constraints that an automata file declares. -/
namespace AlignPlan

open Format (Token Item Block Located)

structure TraceInput where
  id : Nat
  automaton : Automaton
  deriving DecidableEq

/-- Both lists stand in the order of the file. -/
structure Document where
  traces : List TraceInput
  constraints : List Constraint
  deriving DecidableEq

/-- Why a text is no automata file. -/
inductive Complaint.Cause
  | expected (symbols : List Format.Symbol)
  | undeclaredState (name : String)
  | repeatedInitial
  | longTraceId (numeral : String)
  | repeatedTrace (id : Nat)
  | badConstraintId (fault : Fault)

/-- A complaint points at the text between two byte offsets. -/
structure Complaint where
  cause : Complaint.Cause
  start : Nat
  stop : Nat

def Complaint.Cause.message : Complaint.Cause → String
  | .expected symbols => "Lexing failed: " ++ Format.expectation symbols
  | .undeclaredState name => "undeclared state `" ++ name ++ "`"
  | .repeatedInitial => "initial state is declared more than once"
  | .longTraceId numeral =>
    "invalid trace id `" ++ numeral ++ "`: number too large to fit in target type"
  | .repeatedTrace id => "trace " ++ Decimal.render id ++ " is declared more than once"
  | .badConstraintId fault => fault.message

def Complaint.message (c : Complaint) : String := c.cause.message

/-- A complaint about the text a value was read from. -/
def Complaint.about {α : Type} (place : Located α) (cause : Complaint.Cause) : Complaint :=
  ⟨cause, place.start, place.stop⟩

namespace Automaton

/-- Declares the states of an item. States come before everything else, so that items may
refer to states declared further down. -/
def declareStates (a : Automaton) (item : Located Item) : Automaton :=
  match item.value with
  | .states names => names.foldl (fun a name => a.addState name.value) a
  | _ => a

def resolve (a : Automaton) (name : Token) : Except Complaint Nat :=
  match a.stateIndex? name.value with
  | some state => .ok state
  | none => .error (.about name (.undeclaredState name.value))

def acceptNamed : Automaton → List Token → Except Complaint Automaton
  | a, [] => .ok a
  | a, name :: names =>
    match a.resolve name with
    | .error complaint => .error complaint
    | .ok state => (a.addAccepting state).acceptNamed names

/-- Carries out an item whose states are declared. The source of a transition is looked up
before its target. -/
def apply (file : Nat) (a : Automaton) (item : Located Item) : Except Complaint Automaton :=
  match item.value with
  | .states _ => .ok a
  | .alphabet names => .ok (names.foldl (fun a name => a.declareSymbol name.value) a)
  | .init name =>
    if a.initial.isSome then .error (.about item .repeatedInitial)
    else
      match a.resolve name with
      | .error complaint => .error complaint
      | .ok state => .ok (a.setInitial state)
  | .accept names => a.acceptNamed names
  | .transition source symbol target =>
    match a.resolve source, a.resolve target with
    | .error complaint, _ => .error complaint
    | _, .error complaint => .error complaint
    | .ok source, .ok target =>
      .ok ((a.addTransition ⟨source, symbol.value, target⟩).setTransitionSpan
        a.transitions.length ⟨item.start, item.stop, file⟩)

def applyAll (file : Nat) : Automaton → List (Located Item) → Except Complaint Automaton
  | a, [] => .ok a
  | a, item :: items =>
    match a.apply file item with
    | .error complaint => .error complaint
    | .ok a => a.applyAll file items

/-- The automaton that a block declares. -/
def ofBlock (file : Nat) (name : String) (block : Located Block) :
    Except Complaint Automaton :=
  let items := block.value.items
  let declared := items.foldl declareStates
    ((Automaton.empty name).setSpan ⟨block.start, block.stop, file⟩)
  declared.applyAll file items

end Automaton

namespace Document

def empty : Document := ⟨[], []⟩

def addTrace (d : Document) (file : Nat) (block : Located Block) : Except Complaint Document :=
  let token := block.value.id
  match Decimal.word64? token.value with
  | none => .error (.about token (.longTraceId token.value))
  | some id =>
    match Automaton.ofBlock file ("trace " ++ Decimal.render id) block with
    | .error complaint => .error complaint
    | .ok automaton =>
      if d.traces.any fun t => t.id == id then .error (.about block (.repeatedTrace id))
      else .ok { d with traces := d.traces ++ [⟨id, automaton⟩] }

def addConstraint (d : Document) (file : Nat) (block : Located Block) :
    Except Complaint Document :=
  let token := block.value.id
  match AutomatonId.ofString token.value with
  | .error fault => .error (.about token (.badConstraintId fault))
  | .ok id =>
    match Automaton.ofBlock file id.text block with
    | .error complaint => .error complaint
    | .ok automaton => .ok { d with constraints := d.constraints ++ [⟨id, automaton⟩] }

def addBlock (d : Document) (file : Nat) (block : Located Block) : Except Complaint Document :=
  match block.value.kind with
  | .trace => d.addTrace file block
  | .constraint => d.addConstraint file block

def addBlocks (file : Nat) : Document → List (Located Block) → Except Complaint Document
  | d, [] => .ok d
  | d, block :: blocks =>
    match d.addBlock file block with
    | .error complaint => .error complaint
    | .ok d => d.addBlocks file blocks

/-- Reads a text that is registered as a file of that number. -/
def parse (file : Nat) (text : String) : Except Complaint Document :=
  match Format.readBlocks text with
  | .error (offset, symbols) => .error ⟨.expected symbols, offset, offset⟩
  | .ok blocks => empty.addBlocks file blocks

/-- Where the first automaton of a name is declared, traces before constraints. -/
def spanOf (d : Document) (name : String) : Option Span :=
  let automata := d.traces.map TraceInput.automaton ++ d.constraints.map Constraint.automaton
  (automata.find? fun a => a.name == name).bind Automaton.span

def record (d : Document) (name : String) : Log.Record :=
  ⟨.info, .reading, "Parsed " ++ name ++ ": " ++ Decimal.render d.traces.length ++
    " traces, " ++ Decimal.render d.constraints.length ++ " constraint automata"⟩

end Document

end AlignPlan
