import AlignPlan.Planning.Task
import AlignPlan.Text.Decimal

/-! The written form of planning tasks. Text comes only from these functions, each of which
opens and closes its own brackets. -/
namespace AlignPlan.Planning

/-- Words on one line with a space between neighbours. -/
def spaced : List String → String
  | [] => ""
  | [word] => word
  | word :: words => word ++ " " ++ spaced words

def concat : List String → String
  | [] => ""
  | text :: texts => text ++ concat texts

def spaces (count : Nat) : String := String.ofList (List.replicate count ' ')

def newline (indent : Nat) : String := "\n" ++ spaces indent

def TypedList.render (l : TypedList) : String :=
  match l.type with
  | some type => spaced l.names ++ " - " ++ type
  | none => spaced l.names

def renderTyped (lists : List TypedList) : String := spaced (lists.map TypedList.render)

namespace Formula

mutual

/-- Quantifiers and conditional effects are broken over several lines; `indent` is the column
that the lines inside the formula are set in from. -/
def render (indent : Nat) : Formula → String
  | .atom predicate arguments =>
    "(" ++ predicate ++ concat (arguments.map (" " ++ ·)) ++ ")"
  | .increase fluent amount => "(increase (" ++ fluent ++ ") " ++ Decimal.render amount ++ ")"
  | .value fluent amount => "(= (" ++ fluent ++ ") " ++ Decimal.render amount ++ ")"
  | .not body => "(not " ++ render indent body ++ ")"
  | .and conjuncts =>
    if allSimple conjuncts then "(and" ++ renderEach " " indent conjuncts ++ ")"
    else "(and" ++ renderEach (newline (indent + 2)) (indent + 2) conjuncts ++ ")"
  | .imply premise conclusion =>
    if isSimple premise && isSimple conclusion then
      "(imply " ++ render indent premise ++ " " ++ render indent conclusion ++ ")"
    else
      "(imply " ++ render indent premise ++ newline (indent + 2) ++
        render (indent + 2) conclusion ++ ")"
  | .forall quantified body =>
    "(forall (" ++ renderTyped quantified ++ ")" ++ newline (indent + 2) ++
      render (indent + 2) body ++ ")"
  | .when condition effect =>
    "(when " ++ render indent condition ++ newline (indent + 2) ++
      render (indent + 2) effect ++ ")"

/-- Every formula is led in by the separator. -/
def renderEach (separator : String) (indent : Nat) : List Formula → String
  | [] => ""
  | f :: fs => separator ++ render indent f ++ renderEach separator indent fs

end

end Formula

/-- A formula that takes lines of its own. -/
def renderLine (f : Formula) : String := f.render 0 ++ "\n"

def Action.render (a : Action) : String :=
  "(:action " ++ a.name ++ "\n" ++
  ":parameters (" ++ renderTyped a.parameters ++ ")\n" ++
  ":precondition " ++ renderLine a.precondition ++
  ":effect " ++ renderLine a.effect ++
  ")\n"

def Predicate.render (p : Predicate) : String :=
  if p.parameters.isEmpty then "(" ++ p.name ++ ")\n"
  else "(" ++ p.name ++ " " ++ renderTyped p.parameters ++ ")\n"

def Domain.render (d : Domain) : String :=
  "(define (domain " ++ d.name ++ ")\n" ++
  "(:requirements " ++ spaced d.requirements ++ ")\n" ++
  "(:types " ++ renderTyped d.types ++ ")\n" ++
  "(:predicates\n" ++ concat (d.predicates.map Predicate.render) ++ ")\n" ++
  "(:functions\n" ++ concat (d.functions.map fun f => "(" ++ f ++ ")\n") ++ ")\n" ++
  concat (d.actions.map fun a => "\n" ++ a.render) ++
  ")\n"

def Object.render (o : Object) : String := o.name ++ " - " ++ o.type ++ "\n"

def Problem.render (p : Problem) : String :=
  "(define (problem " ++ p.name ++ ")\n" ++
  "(:domain " ++ p.domain ++ ")\n" ++
  "(:objects\n" ++ concat (p.objects.map Object.render) ++ ")\n" ++
  "(:init\n" ++ concat (p.init.map renderLine) ++ ")\n" ++
  "(:goal (and\n" ++ concat (p.goal.map renderLine) ++ "))\n" ++
  "(:metric minimize (" ++ p.metric ++ "))\n" ++
  ")\n"

end AlignPlan.Planning
