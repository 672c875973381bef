/-! Formulas of planning tasks: conditions, effects, facts and goals in one type, as the planning
language has them. Variables are names that start with `?`. -/
namespace AlignPlan.Planning

/-- Names with one parent type, or without a parent at the end of a declaration. -/
structure TypedList where
  names : List String
  type : Option String
  deriving DecidableEq

def TypedList.of (names : List String) (type : String) : TypedList := ⟨names, some type⟩

def TypedList.untyped (names : List String) : TypedList := ⟨names, none⟩

inductive Formula
  | atom (predicate : String) (arguments : List String)
  | not (body : Formula)
  | and (conjuncts : List Formula)
  | imply (premise conclusion : Formula)
  | forall (quantified : List TypedList) (body : Formula)
  | when (condition effect : Formula)
  /-- Raises a numeric fluent by an amount. -/
  | increase (fluent : String) (amount : Nat)
  /-- Gives the initial value of a numeric fluent. -/
  | value (fluent : String) (amount : Nat)
  deriving Inhabited

namespace Formula

mutual

/-- A simple formula is written on one line: it has no quantifier and no conditional effect. -/
def isSimple : Formula → Bool
  | .atom _ _ | .increase _ _ | .value _ _ => true
  | .not body => isSimple body
  | .and conjuncts => allSimple conjuncts
  | .imply premise conclusion => isSimple premise && isSimple conclusion
  | .forall _ _ | .when _ _ => false

def allSimple : List Formula → Bool
  | [] => true
  | f :: fs => isSimple f && allSimple fs

end

mutual

/-- The sum of all increases that occur in a formula. -/
def cost : Formula → Nat
  | .increase _ amount => amount
  | .atom _ _ | .value _ _ => 0
  | .not body | .forall _ body => cost body
  | .and conjuncts => totalCost conjuncts
  | .imply left right | .when left right => cost left + cost right

def totalCost : List Formula → Nat
  | [] => 0
  | f :: fs => cost f + totalCost fs

end

end Formula

end AlignPlan.Planning
