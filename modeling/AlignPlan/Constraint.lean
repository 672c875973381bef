import AlignPlan.Automaton
import AlignPlan.Automaton.Id

/-! Constraints: automata that every alignment has to satisfy, told apart by their ids. -/
namespace AlignPlan

structure Constraint where
  id : AutomatonId
  automaton : Automaton
  deriving DecidableEq

/-- The canonical order of a list of constraints; constraints with one id keep their order. -/
def canonicalOrder (constraints : List Constraint) : List Constraint :=
  constraints.mergeSort fun a b => a.id.le b.id

end AlignPlan
