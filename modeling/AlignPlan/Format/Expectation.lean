/-! What a reader was looking for when it had to give up. -/
namespace AlignPlan.Format

/-- The symbols of the grammar that an error message may mention. -/
inductive Symbol
  | endOfInput
  | name | number | ident
  | statesWord | alphabetWord | initWord | acceptWord
  | states | alphabet | init | accept | transition
  | trace | constraint | file
  deriving DecidableEq

namespace Symbol

/-- All symbols in the order that messages list them in. -/
def all : List Symbol :=
  [.endOfInput, .name, .number, .ident, .statesWord, .alphabetWord, .initWord, .acceptWord,
   .states, .alphabet, .init, .accept, .transition, .trace, .constraint, .file]

def label : Symbol → String
  | .endOfInput => "EOI"
  | .name => "name"
  | .number => "number"
  | .ident => "ident"
  | .statesWord => "kw_states"
  | .alphabetWord => "kw_alphabet"
  | .initWord => "kw_init"
  | .acceptWord => "kw_accept"
  | .states => "states"
  | .alphabet => "alphabet"
  | .init => "init"
  | .accept => "accept"
  | .transition => "transition"
  | .trace => "trace"
  | .constraint => "constraint"
  | .file => "file"

end Symbol

/-- Alternatives as a phrase: `a`, `a or b`, `a, b, or c`. -/
def alternatives : List String → String
  | [] => ""
  | [a] => a
  | [a, b] => a ++ " or " ++ b
  | a :: b :: more => a ++ ", " ++ series b more
where
  series (first : String) : List String → String
    | [] => "or " ++ first
    | second :: more => first ++ ", " ++ series second more

/-- Each symbol once, in the order of the grammar. -/
def expectation (symbols : List Symbol) : String :=
  "expected " ++ alternatives ((Symbol.all.filter (· ∈ symbols)).map Symbol.label)

/-- The furthest offset at which symbols failed, and the symbols that failed there. -/
structure Trail where
  offset : Nat
  symbols : List Symbol

namespace Trail

def start : Trail := ⟨0, []⟩

/-- How many symbols are known to have failed at an offset. -/
def count (t : Trail) (offset : Nat) : Nat := if t.offset = offset then t.symbols.length else 0

/-- A symbol has failed at `offset`, and its parts have turned `before` into `after`. Failures
further on stand. At the offset itself a single failed part is more to the point than the
whole, while several parts give way to it. -/
def settle (before after : Trail) (offset : Nat) (symbol : Symbol) : Trail :=
  let earlier := before.count offset
  if after.count offset = earlier + 1 then after
  else if offset < after.offset then after
  else if offset = after.offset then ⟨offset, after.symbols.take earlier ++ [symbol]⟩
  else ⟨offset, [symbol]⟩

end Trail

end AlignPlan.Format
