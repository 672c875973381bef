import AlignPlan.Distinct
import AlignPlan.Text.Decimal

/-! Finite automata as they are declared. States and transitions are known by their position
in order of declaration; an automaton under construction may refer to states it does not have,
and validation is what finds them. -/
namespace AlignPlan

/-- Byte offsets into a numbered source file. -/
structure Span where
  start : Nat
  stop : Nat
  file : Nat
  deriving DecidableEq

structure Transition where
  source : Nat
  symbol : String
  target : Nat
  deriving DecidableEq

/-- `transitionSpans` may be shorter or longer than `transitions`, but it never ends in `none`,
so automata are equal exactly when they agree on every span. -/
structure Automaton where
  name : String
  states : List String
  alphabet : List String
  initial : Option Nat
  accepting : List Nat
  transitions : List Transition
  span : Option Span
  transitionSpans : List (Option Span)
  deriving DecidableEq

/-- A state by position, as error messages write it. -/
def stateLabel (state : Nat) : String := "state" ++ Decimal.render state

/-- Sets one entry of a list of optional values and extends the list as far as needed. -/
def recordAt {α : Type} : List (Option α) → Nat → α → List (Option α)
  | [], 0, x => [some x]
  | [], n + 1, x => none :: recordAt [] n x
  | _ :: ys, 0, x => some x :: ys
  | y :: ys, n + 1, x => y :: recordAt ys n x

theorem recordAt_get? {α : Type} (ys : List (Option α)) (n m : Nat) (x : α) :
    (recordAt ys n x)[m]?.join = if m = n then some x else ys[m]?.join := by
  fun_induction recordAt ys n x generalizing m with
  | case1 x => cases m <;> simp
  | case2 n x ih =>
    cases m with
    | zero => simp
    | succ m => simpa using ih m
  | case3 y ys x => cases m <;> simp
  | case4 y ys n x ih =>
    cases m with
    | zero => simp
    | succ m => simpa using ih m

namespace Automaton

/-- The automaton without states; its name only serves to report on it. -/
def empty (name : String) : Automaton := ⟨name, [], [], none, [], [], none, []⟩

def stateIndex? (a : Automaton) (name : String) : Option Nat := a.states.idxOf? name

/-- A name that is taken already denotes the state that has it. -/
def addState (a : Automaton) (name : String) : Automaton :=
  { a with states := appendNew a.states name }

def declareSymbol (a : Automaton) (symbol : String) : Automaton :=
  { a with alphabet := appendNew a.alphabet symbol }

def setInitial (a : Automaton) (state : Nat) : Automaton := { a with initial := some state }

def addAccepting (a : Automaton) (state : Nat) : Automaton :=
  { a with accepting := appendNew a.accepting state }

/-- Leaves the alphabet alone, so the symbol may remain undeclared. -/
def addBareTransition (a : Automaton) (t : Transition) : Automaton :=
  { a with transitions := a.transitions ++ [t] }

/-- The symbol joins the alphabet if it is new. -/
def addTransition (a : Automaton) (t : Transition) : Automaton :=
  (a.declareSymbol t.symbol).addBareTransition t

def setSpan (a : Automaton) (span : Span) : Automaton := { a with span := some span }

/-- The transition need not exist yet. -/
def setTransitionSpan (a : Automaton) (transition : Nat) (span : Span) : Automaton :=
  { a with transitionSpans := recordAt a.transitionSpans transition span }

def transitionSpan? (a : Automaton) (transition : Nat) : Option Span :=
  a.transitionSpans[transition]?.join

def size (a : Automaton) : Nat := a.states.length

def hasState (a : Automaton) (state : Nat) : Bool := state < a.size

def stateName? (a : Automaton) (state : Nat) : Option String := a.states[state]?

/-- A state in a message, which may be one the automaton does not have. -/
def describeState (a : Automaton) (state : Nat) : String :=
  (a.stateName? state).getD ("<" ++ stateLabel state ++ ">")

/-- A transition in the notation of automata files. -/
def describe (a : Automaton) (t : Transition) : String :=
  a.describeState t.source ++ " --" ++ t.symbol ++ "-> " ++ a.describeState t.target

end Automaton

end AlignPlan
