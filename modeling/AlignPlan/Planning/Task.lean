import AlignPlan.Planning.Formula

/-! Planning domains and problems. -/
namespace AlignPlan.Planning

structure Predicate where
  name : String
  parameters : List TypedList

structure Action where
  name : String
  parameters : List TypedList
  precondition : Formula
  effect : Formula

/-- `types` groups subtypes by parent. -/
structure Domain where
  name : String
  requirements : List String
  types : List TypedList
  predicates : List Predicate
  functions : List String
  actions : List Action

structure Object where
  name : String
  type : String
  deriving DecidableEq

/-- `metric` is the numeric fluent to be minimized. -/
structure Problem where
  name : String
  domain : String
  objects : List Object
  init : List Formula
  goal : List Formula
  metric : String

/-- The first action of a name. -/
def Domain.action? (d : Domain) (name : String) : Option Action :=
  d.actions.find? fun a => a.name == name

def objectsOfType (objects : List Object) (type : String) : List String :=
  (objects.filter fun o => o.type == type).map Object.name

end AlignPlan.Planning
