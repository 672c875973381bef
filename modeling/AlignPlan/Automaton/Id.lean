import AlignPlan.Fault
import AlignPlan.Text.Quoted

/-! Identifiers of constraint automata. They are joined to state names with underscores, so an
identifier has none: it is a non-empty run of ASCII letters and digits. -/
namespace AlignPlan

structure AutomatonId where
  text : String
  nonempty : text.toList ≠ []
  alphanumeric : text.toList.all Char.isAlphanum
  deriving DecidableEq

namespace AutomatonId

/-- Ids are their texts. -/
theorem text_inj {a b : AutomatonId} : a.text = b.text ↔ a = b := by
  cases a
  cases b
  simp

/-- The first character outside the letters and digits is reported. -/
def ofString (text : String) : Except Fault AutomatonId :=
  if nonempty : text.toList = [] then
    .error ⟨text, .badName "" "automaton ids must not be empty"⟩
  else if alphanumeric : text.toList.all Char.isAlphanum then
    .ok ⟨text, nonempty, alphanumeric⟩
  else
    let found := (text.toList.find? fun c => !c.isAlphanum).getD ' '
    .error ⟨text, .badName text
      ("automaton ids may only contain ASCII letters and digits, found " ++
        Text.quoteChar found)⟩

/-- The canonical order: ids that are 64-bit decimal numerals come first and compare as
numbers, equal numbers and all other ids compare as texts. -/
def compare (a b : AutomatonId) : Ordering :=
  match Decimal.word64? a.text, Decimal.word64? b.text with
  | some m, some n => (Ord.compare m n).then (Ord.compare a.text b.text)
  | some _, none => .lt
  | none, some _ => .gt
  | none, none => Ord.compare a.text b.text

def le (a b : AutomatonId) : Bool := compare a b != .gt

end AutomatonId

end AlignPlan
