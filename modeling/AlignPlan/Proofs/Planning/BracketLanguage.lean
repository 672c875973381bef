import AlignPlan.Planning.Brackets
import Mathlib.Computability.ContextFreeGrammar
import Mathlib.Order.CompletePartialOrder

/-! The language of balanced brackets. Counting the open brackets tells the texts whose brackets,
all other characters left out, the grammar `S → ε | ( S ) S` generates. Where some brackets are
open already, the count ends at none exactly if there are words of the grammar with closing
brackets between them, one for each that was open. -/
namespace AlignPlan.Planning

/-! ### Grammars -/

section Grammars

variable {T N : Type} {g : ContextFreeGrammar T} {words : N → Language T}

/-- The words that a string of symbols may become, if nonterminals become certain words. -/
def spelled (words : N → Language T) (symbols : List (Symbol T N)) : Language T :=
  (symbols.map fun
    | .terminal c => {[c]}
    | .nonterminal n => words n).prod

@[simp] theorem spelled_nil : spelled words [] = 1 := rfl

@[simp] theorem spelled_terminal (c : T) (s : List (Symbol T N)) :
    spelled words (.terminal c :: s) = {[c]} * spelled words s := by simp [spelled]

@[simp] theorem spelled_nonterminal (n : N) (s : List (Symbol T N)) :
    spelled words (.nonterminal n :: s) = words n * spelled words s := by simp [spelled]

@[simp] theorem spelled_append (s t : List (Symbol T N)) :
    spelled words (s ++ t) = spelled words s * spelled words t := by simp [spelled]

theorem mem_spelled_terminals (w : List T) : w ∈ spelled words (w.map .terminal) := by
  induction w with
  | nil => exact Language.nil_mem_one
  | cons c w ih => exact Language.append_mem_mul (a := [c]) rfl ih

/-- What is generated lies in every family of languages that the rules do not lead out of. -/
theorem language_le_of_rules (words : g.NT → Language T)
    (closed : ∀ rule ∈ g.rules, spelled words rule.output ≤ words rule.input) :
    g.language ≤ words g.initial := by
  have step {s t : List (Symbol T g.NT)} (produced : g.Produces s t) :
      spelled words t ≤ spelled words s := by
    obtain ⟨rule, listed, rewrites⟩ := produced
    obtain ⟨before, behind, rfl, rfl⟩ := rewrites.exists_parts
    have one : spelled words rule.output ≤ spelled words [.nonterminal rule.input] := by
      simpa using closed rule listed
    rw [spelled_append, spelled_append, spelled_append, spelled_append]
    exact mul_le_mul' (mul_le_mul' le_rfl one) le_rfl
  have run {s t : List (Symbol T g.NT)} (derived : g.Derives s t) :
      spelled words t ≤ spelled words s := by
    induction derived with
    | refl => exact le_rfl
    | tail _ last ih => exact (step last).trans ih
  intro w generated
  have member := run generated (mem_spelled_terminals w)
  simpa using member

end Grammars

/-- `S → ε` -/
abbrev emptyRule : ContextFreeRule Char Unit := ⟨(), []⟩

/-- `S → ( S ) S` -/
abbrev bracketRule : ContextFreeRule Char Unit :=
  ⟨(), [.terminal '(', .nonterminal (), .terminal ')', .nonterminal ()]⟩

abbrev bracketGrammar : ContextFreeGrammar Char where
  NT := Unit
  initial := ()
  rules := {emptyRule, bracketRule}

theorem mem_bracketGrammar_rules {rule : ContextFreeRule Char Unit} :
    rule ∈ bracketGrammar.rules ↔ rule = emptyRule ∨ rule = bracketRule :=
  Finset.mem_insert.trans (or_congr_right Finset.mem_singleton)

/-- The words of the grammar, each with the tree that derives it. -/
inductive Nested : List Char → Prop
  | empty : Nested []
  | enclose {inside after : List Char} (inner : Nested inside) (rest : Nested after) :
      Nested ('(' :: (inside ++ ')' :: after))

def nestedWords : Language Char := {w | Nested w}

@[simp] theorem mem_nestedWords {w : List Char} : w ∈ nestedWords ↔ Nested w := Iff.rfl

theorem generated_of_nested {w : List Char} (nested : Nested w) :
    w ∈ bracketGrammar.language := by
  rw [ContextFreeGrammar.mem_language_iff]
  induction nested with
  | empty =>
    have step : bracketGrammar.Produces [.nonterminal ()] [] :=
      ⟨emptyRule, mem_bracketGrammar_rules.mpr (.inl rfl), .input_output⟩
    exact step.single
  | @enclose inside after _ _ inner rest =>
    have step : bracketGrammar.Produces [.nonterminal ()] bracketRule.output :=
      ⟨bracketRule, mem_bracketGrammar_rules.mpr (.inr rfl), .input_output⟩
    have left := (inner.append_right [.terminal ')', .nonterminal ()]).append_left [.terminal '(']
    have right := rest.append_left (.terminal '(' :: inside.map .terminal ++ [.terminal ')'])
    rw [List.append_assoc] at right
    have all := (step.single.trans left).trans right
    simpa using all

/-- Nested words are all that the rules lead to. -/
theorem nested_of_generated {w : List Char} (generated : w ∈ bracketGrammar.language) :
    Nested w := by
  refine language_le_of_rules (g := bracketGrammar) (fun _ => nestedWords) ?_ generated
  intro rule listed w member
  change w ∈ spelled _ rule.output at member
  rcases mem_bracketGrammar_rules.mp listed with rfl | rfl
  · obtain rfl : w = [] := by simpa using member
    exact .empty
  · simp only [spelled_terminal, spelled_nonterminal, spelled_nil, mul_one, Language.mem_mul,
      mem_nestedWords] at member
    obtain ⟨_, rfl, _, ⟨inside, inner, _, ⟨_, rfl, after, rest, rfl⟩, rfl⟩, rfl⟩ := member
    exact .enclose inner rest

/-! ### Open brackets -/

/-- Words that close `depth` brackets which were open before. -/
def Unwinds : Nat → List Char → Prop
  | 0, w => Nested w
  | depth + 1, w => ∃ inside after, Nested inside ∧ Unwinds depth after ∧ w = inside ++ ')' :: after

variable {depth : Nat} {u w : List Char}

theorem Unwinds.enclose {inside after : List Char} (rest : Unwinds depth after)
    (inner : Nested inside) : Unwinds depth ('(' :: (inside ++ ')' :: after)) := by
  cases depth with
  | zero => exact .enclose inner rest
  | succ depth =>
    obtain ⟨next, last, nested, unwinds, rfl⟩ := rest
    exact ⟨'(' :: (inside ++ ')' :: next), last, .enclose inner nested, unwinds, by simp⟩

/-- Nested brackets leave the number of open ones as it is. -/
theorem closes_append_of_nested (nested : Nested u) (depth : Nat) (v : List Char) :
    closes depth (u ++ v) = closes depth v := by
  induction nested generalizing depth v with
  | empty => rfl
  | enclose _ _ inner rest => simp [closes, inner, rest]

theorem closes_of_unwinds (unwinds : Unwinds depth w) : closes depth w = true := by
  induction depth generalizing w with
  | zero =>
    have all := closes_append_of_nested unwinds 0 []
    simpa [closes] using all
  | succ depth ih =>
    obtain ⟨inside, after, nested, rest, rfl⟩ := unwinds
    rw [closes_append_of_nested nested, closes]
    exact ih rest

/-! ### Counting -/

def isBracket (c : Char) : Bool := c == '(' || c == ')'

theorem isBracket_iff {c : Char} : isBracket c = true ↔ c = '(' ∨ c = ')' := by
  simp [isBracket]

theorem closes_cons_of_not_isBracket {c : Char} {cs : List Char} (plain : isBracket c = false) :
    closes depth (c :: cs) = closes depth cs := by
  simp only [isBracket, Bool.or_eq_false_iff, beq_eq_false_iff_ne] at plain
  simp [closes, plain]

/-- Whatever closes what is open unwinds it, bracket by bracket. -/
theorem unwinds_of_closes {cs : List Char} (closed : closes depth cs = true) :
    Unwinds depth (cs.filter isBracket) := by
  -- After an opening bracket one more is open, and the first of the words that unwind the rest
  -- is what stands in it.
  induction cs generalizing depth with
  | nil =>
    obtain rfl : depth = 0 := by simpa [closes] using closed
    exact .empty
  | cons c cs ih =>
    cases known : isBracket c with
    | false =>
      rw [closes_cons_of_not_isBracket known] at closed
      simpa [known] using ih closed
    | true =>
      rw [List.filter_cons_of_pos known]
      obtain rfl | rfl := isBracket_iff.mp known
      · have inner : closes (depth + 1) cs = true := closed
        obtain ⟨inside, after, nested, rest, same⟩ := ih inner
        rw [same]
        exact rest.enclose nested
      · cases depth with
        | zero => simp [closes] at closed
        | succ depth => exact ⟨[], _, .empty, ih closed, rfl⟩

theorem closes_filter (depth : Nat) (cs : List Char) :
    closes depth (cs.filter isBracket) = closes depth cs := by
  induction cs generalizing depth with
  | nil => rfl
  | cons c cs ih =>
    cases known : isBracket c with
    | false =>
      rw [List.filter_cons_of_neg (by simp [known]), closes_cons_of_not_isBracket known, ih]
    | true =>
      rw [List.filter_cons_of_pos known]
      obtain rfl | rfl := isBracket_iff.mp known
      · exact ih (depth + 1)
      · cases depth with
        | zero => rfl
        | succ depth => exact ih depth

theorem closes_iff_unwinds (depth : Nat) (cs : List Char) :
    closes depth cs = true ↔ Unwinds depth (cs.filter isBracket) := by
  constructor
  · exact unwinds_of_closes
  · intro unwinds
    rw [← closes_filter]
    exact closes_of_unwinds unwinds

/-- The brackets of a text, in the order in which they stand there. -/
def brackets (text : String) : List Char := text.toList.filter isBracket

theorem isBalanced_iff_nested {text : String} :
    isBalanced text = true ↔ Nested (brackets text) := closes_iff_unwinds 0 _

/-- A balanced text may stand in front of any other without a difference to its balance. -/
theorem isBalanced_append {a : String} (balanced : isBalanced a = true) (b : String) :
    isBalanced (a ++ b) = isBalanced b := by
  have nested := isBalanced_iff_nested.mp balanced
  have same : brackets (a ++ b) = brackets a ++ brackets b := by simp [brackets]
  have left := closes_append_of_nested nested 0 (brackets b)
  rwa [← same, brackets, brackets, closes_filter, closes_filter] at left

theorem isBalanced_enclosed {a : String} (balanced : isBalanced a = true) :
    isBalanced ("(" ++ a ++ ")") = true := by
  have same : brackets ("(" ++ a ++ ")") = '(' :: (brackets a ++ [')']) := by
    simp [brackets, isBracket]
  rw [isBalanced_iff_nested, same]
  exact .enclose (isBalanced_iff_nested.mp balanced) .empty

/-- Counting open brackets tells the texts whose brackets the grammar generates from all others.
Texts that are balanced stay so next to each other and in brackets. -/
theorem balanced_iff_generated :
    (∀ text : String, isBalanced text = true ↔ brackets text ∈ bracketGrammar.language) ∧
    (∀ a b : String, isBalanced a = true → isBalanced b = true → isBalanced (a ++ b) = true) ∧
    ∀ a : String, isBalanced a = true → isBalanced ("(" ++ a ++ ")") = true := by
  refine ⟨fun text => ?_, fun a b first second => ?_, fun a balanced => ?_⟩
  · rw [isBalanced_iff_nested]
    exact ⟨generated_of_nested, nested_of_generated⟩
  · rw [isBalanced_append first, second]
  · exact isBalanced_enclosed balanced

/-- In the first text as many brackets close as open, but one of them closes too early. -/
theorem balanced_iff_generated_sample :
    ")(".toList ∉ bracketGrammar.language ∧ "(()())".toList ∈ bracketGrammar.language ∧
    isBalanced "(final ?s)" = true ∧ isBalanced "p (q)" = true ∧
    isBalanced ("(final ?s)" ++ "p (q)") = true ∧ isBalanced ("(" ++ "p (q)" ++ ")") = true := by
  obtain ⟨decides, joined, enclosed⟩ := balanced_iff_generated
  have first : isBalanced "(final ?s)" = true := by decide +kernel
  have second : isBalanced "p (q)" = true := by decide +kernel
  have early : isBalanced ")(" = false := by decide +kernel
  refine ⟨fun generated => ?_, (decides "(()())").mp (by decide +kernel), first, second,
    joined _ _ first second, enclosed _ second⟩
  exact Bool.false_ne_true (early.symm.trans ((decides ")(").mpr generated))

end AlignPlan.Planning
