/-! Balance of round brackets in a text, all other characters ignored. -/
namespace AlignPlan.Planning

/-- Whether the brackets close, with `depth` of them open before. -/
def closes : Nat → List Char → Bool
  | depth, [] => depth == 0
  | depth, '(' :: rest => closes (depth + 1) rest
  | 0, ')' :: _ => false
  | depth + 1, ')' :: rest => closes depth rest
  | depth, _ :: rest => closes depth rest

def isBalanced (text : String) : Bool := closes 0 text.toList

end AlignPlan.Planning
