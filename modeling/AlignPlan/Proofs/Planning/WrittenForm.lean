import AlignPlan.Name
import AlignPlan.Planning.Layout
import AlignPlan.Proofs.Planning.Expression

/-! The expressions that formulas, actions, domains and problems denote, and the labels they are
made of. If all labels are words, the written form reads as the one expression that is denoted. -/
namespace AlignPlan.Planning

/-! ### Separators -/

theorem startsDelimited_append {a b : String} (ha : startsDelimited a = true)
    (hb : startsDelimited b = true) : startsDelimited (a ++ b) = true := by
  by_cases empty : a.toList = []
  · simpa [startsDelimited, empty] using hb
  · obtain ⟨c, cs, same⟩ := List.exists_cons_of_ne_nil empty
    simpa [startsDelimited, same] using ha

theorem endsDelimited_append_of_ne {a b : String} (nonempty : b.toList ≠ [])
    (hb : endsDelimited b = true) : endsDelimited (a ++ b) = true := by
  rcases List.eq_nil_or_concat b.toList with empty | ⟨before, c, same⟩
  · contradiction
  · simpa [endsDelimited, same, ← List.append_assoc] using hb

theorem endsDelimited_append {a b : String} (ha : endsDelimited a = true)
    (hb : endsDelimited b = true) : endsDelimited (a ++ b) = true := by
  by_cases empty : b.toList = []
  · simpa [endsDelimited, empty] using ha
  · exact endsDelimited_append_of_ne empty hb

/-- A line break and the indentation after it separate and say nothing else. -/
theorem tokens_newline (indent : Nat) :
    tokens (newline indent) = [] ∧ startsDelimited (newline indent) = true := by
  have blank : tokensFrom [] (List.replicate indent ' ') = [] := by
    induction indent with
    | zero => rfl
    | succ n ih => exact ih
  have silent : tokens (spaces indent) = [] := by rw [spaces, tokens, String.toList_ofList, blank]
  constructor
  · rw [newline, tokens_append (.inl rfl), silent]
    rfl
  · simp [startsDelimited, newline, isDelimiter, Text.isBlank]

/-- Whatever reads texts with a space between them one by one reads spaced texts so. -/
theorem flatMap_eq_of_spaced {α : Type} {f : String → List α} (nothing : f "" = [])
    (apart : ∀ a b, f (a ++ " " ++ b) = f a ++ f b) (texts : List String) :
    f (spaced texts) = texts.flatMap f := by
  induction texts with
  | nil => exact nothing
  | cons text texts ih =>
    cases texts with
    | nil => simp [spaced]
    | cons next texts =>
      change f (text ++ " " ++ spaced (next :: texts)) = f text ++ (next :: texts).flatMap f
      rw [apart, ih]

theorem tokens_spaced (texts : List String) : tokens (spaced texts) = texts.flatMap tokens := by
  refine flatMap_eq_of_spaced rfl (fun a b => ?_) texts
  have ends : endsDelimited (a ++ " ") = true := by
    simp [endsDelimited, isDelimiter, Text.isBlank]
  have gap : tokens (a ++ " ") = tokens a := by
    rw [tokens_append (.inr rfl)]
    exact List.append_nil _
  rw [tokens_append (.inl ends), gap]

theorem tokens_concat_of_starts {texts : List String}
    (apart : ∀ text ∈ texts, startsDelimited text = true) :
    tokens (concat texts) = texts.flatMap tokens ∧ startsDelimited (concat texts) = true := by
  induction texts with
  | nil => exact ⟨rfl, rfl⟩
  | cons text texts ih =>
    obtain ⟨first, others⟩ := List.forall_mem_cons.mp apart
    obtain ⟨read, starts⟩ := ih others
    exact ⟨by rw [concat, tokens_append (.inr starts), read, List.flatMap_cons],
      startsDelimited_append first starts⟩

/-! ### What values denote -/

namespace TypedList

def labels (l : TypedList) : List String := l.names ++ l.type.toList

/-- A type stands behind a dash after the names it belongs to. -/
def expressions (l : TypedList) : List Expression :=
  l.names.map .word ++ (l.type.toList.flatMap fun type => [.word "-", .word type])

end TypedList

namespace Formula

mutual

def labels : Formula → List String
  | .atom predicate arguments => predicate :: arguments
  | .not body => labels body
  | .and conjuncts => allLabels conjuncts
  | .imply left right | .when left right => labels left ++ labels right
  | .forall quantified body => quantified.flatMap TypedList.labels ++ labels body
  | .increase fluent _ | .value fluent _ => [fluent]

def allLabels : List Formula → List String
  | [] => []
  | f :: fs => labels f ++ allLabels fs

end

mutual

def expression : Formula → Expression
  | .atom predicate arguments => .list (.word predicate :: arguments.map .word)
  | .not body => .list [.word "not", expression body]
  | .and conjuncts => .list (.word "and" :: expressions conjuncts)
  | .imply premise conclusion =>
    .list [.word "imply", expression premise, expression conclusion]
  | .forall quantified body =>
    .list [.word "forall", .list (quantified.flatMap TypedList.expressions), expression body]
  | .when condition effect => .list [.word "when", expression condition, expression effect]
  | .increase fluent amount =>
    .list [.word "increase", .list [.word fluent], .word (Decimal.render amount)]
  | .value fluent amount => .list [.word "=", .list [.word fluent], .word (Decimal.render amount)]

def expressions : List Formula → List Expression
  | [] => []
  | f :: fs => expression f :: expressions fs

end

end Formula

namespace Predicate

def labels (p : Predicate) : List String := p.name :: p.parameters.flatMap TypedList.labels

def expression (p : Predicate) : Expression :=
  .list (.word p.name :: p.parameters.flatMap TypedList.expressions)

end Predicate

namespace Action

def labels (a : Action) : List String :=
  a.name :: a.parameters.flatMap TypedList.labels ++ a.precondition.labels ++ a.effect.labels

def expression (a : Action) : Expression :=
  .list [.word ":action", .word a.name,
    .word ":parameters", .list (a.parameters.flatMap TypedList.expressions),
    .word ":precondition", a.precondition.expression, .word ":effect", a.effect.expression]

end Action

namespace Domain

def labels (d : Domain) : List String :=
  d.name :: d.requirements ++ d.types.flatMap TypedList.labels ++
    d.predicates.flatMap Predicate.labels ++ d.functions ++ d.actions.flatMap Action.labels

def expression (d : Domain) : Expression :=
  .list ([.word "define", .list [.word "domain", .word d.name],
    .list (.word ":requirements" :: d.requirements.map .word),
    .list (.word ":types" :: d.types.flatMap TypedList.expressions),
    .list (.word ":predicates" :: d.predicates.map Predicate.expression),
    .list (.word ":functions" :: d.functions.map fun f => .list [.word f])] ++
    d.actions.map Action.expression)

end Domain

namespace Object

def labels (o : Object) : List String := [o.name, o.type]

def expressions (o : Object) : List Expression := [.word o.name, .word "-", .word o.type]

end Object

namespace Problem

def labels (p : Problem) : List String :=
  p.name :: p.domain :: p.metric :: p.objects.flatMap Object.labels ++
    (p.init ++ p.goal).flatMap Formula.labels

def expression (p : Problem) : Expression :=
  .list [.word "define", .list [.word "problem", .word p.name],
    .list [.word ":domain", .word p.domain],
    .list (.word ":objects" :: p.objects.flatMap Object.expressions),
    .list (.word ":init" :: p.init.map Formula.expression),
    .list [.word ":goal", .list (.word "and" :: p.goal.map Formula.expression)],
    .list [.word ":metric", .word "minimize", .list [.word p.metric]]]

end Problem

namespace Formula

theorem startsDelimited_render (indent : Nat) (f : Formula) :
    startsDelimited (f.render indent) = true := by
  have opens : (f.render indent).toList.head? = some '(' := by
    cases f <;> simp only [render] <;> (try split) <;>
      simp only [String.toList_append, List.head?_append] <;> rfl
  rw [startsDelimited, opens]
  rfl

end Formula

/-! ### Reading back -/

/-- The characters of names end no word. -/
theorem isDelimiter_eq_false {c : Char} (plain : Name.isNameChar c = true) :
    isDelimiter c = false := by
  have code : c.toNat = 45 ∨ 48 ≤ c.toNat ∧ c.toNat ≤ 122 := by
    simp only [Name.isNameChar, Bool.or_eq_true, beq_iff_eq] at plain
    rcases plain with (letter | rfl) | rfl
    · delta Char.isAlphanum Char.isAlpha Char.isUpper Char.isLower Char.isDigit at letter
      simp only [Bool.or_eq_true, Bool.and_eq_true, decide_eq_true_eq, ge_iff_le,
        UInt32.le_iff_toNat_le] at letter
      simp at letter
      omega
    · decide
    · decide
  have opening : c ≠ '(' := by rintro rfl; simp at code
  have closing : c ≠ ')' := by rintro rfl; simp at code
  have blank : Text.isBlank c = false := by
    simp only [Text.isBlank, Bool.or_eq_false_iff, Bool.and_eq_false_iff, beq_eq_false_iff_ne,
      decide_eq_false_iff_not]
    omega
  simp [isDelimiter, opening, closing, blank]

theorem isWord_of_isNameChar {text : String} (nonempty : text.toList ≠ [])
    (plain : text.toList.all Name.isNameChar = true) : isWord text = true := by
  simp only [isWord, Bool.and_eq_true, List.all_eq_true] at plain ⊢
  exact ⟨by simpa using nonempty, fun c member => by simp [isDelimiter_eq_false (plain c member)]⟩

theorem isWord_decimal (n : Nat) : isWord (Decimal.render n) = true := by
  apply isWord_of_isNameChar (Decimal.toList_render_ne_nil n)
  rw [List.all_eq_true]
  intro c member
  simp [Name.isNameChar, Char.isAlphanum, Decimal.isDigit_of_mem_render member]

theorem flatMap_tokens_of_words {words : List String} (legible : ∀ w ∈ words, isWord w = true) :
    words.flatMap tokens = Expression.tokensAll (words.map .word) := by
  induction words with
  | nil => rfl
  | cons w ws ih =>
    obtain ⟨first, others⟩ := List.forall_mem_cons.mp legible
    rw [List.flatMap_cons, tokens_of_isWord first, ih others]
    rfl

theorem TypedList.tokens_render {l : TypedList}
    (legible : ∀ label ∈ l.labels, isWord label = true) :
    tokens l.render = Expression.tokensAll l.expressions := by
  obtain ⟨names, type⟩ := l
  simp only [labels, List.forall_mem_append] at legible
  have read : tokens (spaced names) = Expression.tokensAll (names.map .word) := by
    rw [tokens_spaced, flatMap_tokens_of_words legible.1]
  cases type with
  | none => simpa [render, expressions] using read
  | some type =>
    have typed : isWord type = true := legible.2 type (by simp)
    have ends : endsDelimited (spaced names ++ " - ") = true :=
      endsDelimited_append_of_ne (by simp) rfl
    rw [render, tokens_append (.inl ends), tokens_append (.inr rfl), read, tokens_of_isWord typed,
      expressions, Expression.tokensAll_append, List.append_assoc]
    rfl

theorem tokens_renderTyped {lists : List TypedList}
    (legible : ∀ label ∈ lists.flatMap TypedList.labels, isWord label = true) :
    tokens (renderTyped lists) = Expression.tokensAll (lists.flatMap TypedList.expressions) := by
  rw [renderTyped, tokens_spaced]
  induction lists with
  | nil => rfl
  | cons l ls ih =>
    rw [List.flatMap_cons, List.forall_mem_append] at legible
    rw [List.map_cons, List.flatMap_cons, List.flatMap_cons, Expression.tokensAll_append,
      ih legible.2, l.tokens_render legible.1]

theorem tokens_arguments {arguments : List String}
    (legible : ∀ w ∈ arguments, isWord w = true) :
    tokens (concat (arguments.map (" " ++ ·))) = Expression.tokensAll (arguments.map .word) ∧
      startsDelimited (concat (arguments.map (" " ++ ·))) = true := by
  have apart : ∀ text ∈ arguments.map (" " ++ ·), startsDelimited text = true := by
    intro text member
    obtain ⟨argument, _, rfl⟩ := List.mem_map.mp member
    simp [startsDelimited, isDelimiter, Text.isBlank]
  obtain ⟨read, starts⟩ := tokens_concat_of_starts apart
  refine ⟨?_, starts⟩
  have led (w : String) : tokens (" " ++ w) = tokens w := tokens_append (.inl rfl)
  rw [read, ← flatMap_tokens_of_words legible, List.flatMap_map]
  simp only [led]

/-- Two parts behind a keyword, on one line or on two. -/
theorem tokens_pair {head first separator second : String} (ends : endsDelimited head = true)
    (silent : tokens separator = [] ∧ startsDelimited separator = true)
    (starts : startsDelimited second = true) :
    tokens (head ++ first ++ separator ++ second ++ ")") =
      tokens head ++ tokens first ++ tokens second ++ [.closing] := by
  rw [tokens_append (.inr rfl), tokens_append (.inr starts), tokens_append (.inr silent.2),
    tokens_append (.inl ends), silent.1, List.append_nil]
  rfl

namespace Formula

theorem startsDelimited_renderEach {separator : String} (indent : Nat) (fs : List Formula)
    (starts : startsDelimited separator = true) :
    startsDelimited (renderEach separator indent fs) = true := by
  induction fs with
  | nil => rfl
  | cons f fs ih =>
    have first := startsDelimited_append starts (startsDelimited_render indent f)
    exact startsDelimited_append first ih

mutual

theorem tokens_render (indent : Nat) : (f : Formula) → (∀ label ∈ f.labels, isWord label = true) →
    tokens (f.render indent) = f.expression.tokens
  | .atom predicate arguments, legible => by
    obtain ⟨known, legible⟩ := List.forall_mem_cons.mp legible
    obtain ⟨read, starts⟩ := tokens_arguments legible
    rw [render, tokens_append (.inr rfl), tokens_append (.inr starts), tokens_append (.inl rfl),
      tokens_of_isWord known, read]
    change [Token.opening] ++ _ ++ _ ++ [.closing] = _
    simp [expression]
  | .not body, legible => by
    have inside := tokens_render indent body legible
    rw [render, tokens_append (.inr rfl), tokens_append (.inl rfl), inside]
    change [Token.opening, .word "not"] ++ _ ++ [.closing] = _
    simp [expression]
  | .and conjuncts, legible => by
    have read {separator : String} (inner : Nat)
        (silent : tokens separator = [] ∧ startsDelimited separator = true) :
        tokens ("(and" ++ renderEach separator inner conjuncts ++ ")") =
          (Formula.and conjuncts).expression.tokens := by
      have starts := startsDelimited_renderEach inner conjuncts silent.2
      rw [tokens_append (.inr rfl), tokens_append (.inr starts),
        tokens_renderEach inner silent conjuncts legible]
      change [Token.opening, .word "and"] ++ _ ++ [.closing] = _
      simp [expression]
    rw [render]
    split
    · exact read indent ⟨rfl, rfl⟩
    · exact read (indent + 2) (tokens_newline _)
  | .imply premise conclusion, legible => by
    obtain ⟨first, second⟩ := List.forall_mem_append.mp legible
    have read {separator : String} (inner : Nat)
        (silent : tokens separator = [] ∧ startsDelimited separator = true) :
        tokens ("(imply " ++ render indent premise ++ separator ++ render inner conclusion ++ ")") =
          (Formula.imply premise conclusion).expression.tokens := by
      rw [tokens_pair rfl silent (startsDelimited_render inner conclusion),
        tokens_render indent premise first, tokens_render inner conclusion second]
      change [Token.opening, .word "imply"] ++ _ ++ _ ++ _ = _
      simp [expression]
    rw [render]
    split
    · exact read indent ⟨rfl, rfl⟩
    · exact read (indent + 2) (tokens_newline _)
  | .forall quantified body, legible => by
    obtain ⟨bound, inside⟩ := List.forall_mem_append.mp legible
    obtain ⟨silent, starts⟩ := tokens_newline (indent + 2)
    rw [render, tokens_append (.inr rfl), tokens_append (.inr (startsDelimited_render _ body)),
      tokens_append (.inr starts), tokens_append (.inr rfl), tokens_append (.inl rfl),
      tokens_renderTyped bound, silent, tokens_render (indent + 2) body inside]
    change [Token.opening, .word "forall", .opening] ++ _ ++ [.closing] ++ [] ++ _ ++ [.closing] = _
    simp [expression]
  | .when condition effect, legible => by
    obtain ⟨first, second⟩ := List.forall_mem_append.mp legible
    rw [render, tokens_pair rfl (tokens_newline _) (startsDelimited_render _ effect),
      tokens_render indent condition first, tokens_render (indent + 2) effect second]
    change [Token.opening, .word "when"] ++ _ ++ _ ++ _ = _
    simp [expression]
  | .increase fluent amount, legible => by
    rw [render, tokens_append (.inr rfl),
      tokens_append (.inl (endsDelimited_append_of_ne (by simp) rfl)), tokens_append (.inr rfl),
      tokens_append (.inl rfl), tokens_of_isWord (legible fluent (by simp [labels])),
      tokens_of_isWord (isWord_decimal amount)]
    rfl
  | .value fluent amount, legible => by
    rw [render, tokens_append (.inr rfl),
      tokens_append (.inl (endsDelimited_append_of_ne (by simp) rfl)), tokens_append (.inr rfl),
      tokens_append (.inl rfl), tokens_of_isWord (legible fluent (by simp [labels])),
      tokens_of_isWord (isWord_decimal amount)]
    rfl

theorem tokens_renderEach {separator : String} (indent : Nat)
    (silent : tokens separator = [] ∧ startsDelimited separator = true) :
    (fs : List Formula) → (∀ label ∈ allLabels fs, isWord label = true) →
    tokens (renderEach separator indent fs) = Expression.tokensAll (expressions fs)
  | [], _ => rfl
  | f :: fs, legible => by
    obtain ⟨first, others⟩ := List.forall_mem_append.mp legible
    have starts := startsDelimited_renderEach indent fs silent.2
    rw [renderEach, tokens_append (.inr starts),
      tokens_append (.inr (startsDelimited_render indent f)), silent.1,
      tokens_render indent f first, tokens_renderEach indent silent fs others]
    rfl

end

end Formula

/-! ### Lines -/

/-- A text that no word reaches out of at its end, with its tokens. -/
structure Reads (text : String) (read : List Token) : Prop where
  same : tokens text = read
  ends : endsDelimited text = true

namespace Reads

variable {a b body close : String} {ts us vs : List Token}

theorem append (ha : Reads a ts) (hb : Reads b us) : Reads (a ++ b) (ts ++ us) where
  same := by rw [tokens_append (.inl ha.ends), ha.same, hb.same]
  ends := endsDelimited_append ha.ends hb.ends

/-- What closes a text keeps it apart from what follows. -/
theorem enclose (ha : Reads a ts) (inside : tokens body = us) (hc : Reads close vs)
    (starts : startsDelimited close = true) (nonempty : close.toList ≠ []) :
    Reads (a ++ body ++ close) (ts ++ us ++ vs) where
  same := by
    rw [tokens_append (.inr starts), tokens_append (.inl ha.ends), ha.same, inside, hc.same]
  ends := endsDelimited_append_of_ne nonempty hc.ends

theorem line (ha : Reads a ts) (inside : tokens body = us) :
    Reads (a ++ body ++ "\n") (ts ++ us ++ []) := ha.enclose inside ⟨rfl, rfl⟩ rfl (by simp)

theorem listLine (ha : Reads a ts) (inside : tokens body = us) :
    Reads (a ++ body ++ ")\n") (ts ++ us ++ [.closing]) :=
  ha.enclose inside ⟨rfl, rfl⟩ rfl (by simp)

theorem lines {α : Type} {values : List α} {write : α → String} {denote : α → List Expression}
    (each : ∀ x ∈ values, Reads (write x) (Expression.tokensAll (denote x))) :
    Reads (concat (values.map write)) (Expression.tokensAll (values.flatMap denote)) := by
  induction values with
  | nil => exact ⟨rfl, rfl⟩
  | cons x xs ih =>
    obtain ⟨first, others⟩ := List.forall_mem_cons.mp each
    rw [List.flatMap_cons, Expression.tokensAll_append]
    exact first.append (ih others)

/-- Values that are one expression each. -/
theorem parts {α : Type} {values : List α} {write : α → String} {denote : α → Expression}
    (each : ∀ x ∈ values, Reads (write x) (denote x).tokens) :
    Reads (concat (values.map write)) (Expression.tokensAll (values.map denote)) := by
  have all : Reads (concat (values.map write))
      (Expression.tokensAll (values.flatMap fun x => [denote x])) :=
    lines (by simpa using each)
  rwa [← List.map_eq_flatMap] at all

end Reads

theorem reads_close : Reads ")\n" [.closing] := ⟨rfl, rfl⟩

theorem reads_renderLine {f : Formula} (legible : ∀ label ∈ f.labels, isWord label = true) :
    Reads (renderLine f) f.expression.tokens where
  same := by
    rw [renderLine, tokens_append (.inr rfl), f.tokens_render 0 legible]
    exact List.append_nil _
  ends := endsDelimited_append_of_ne (by simp) rfl

theorem Action.reads_render {a : Action} (legible : ∀ label ∈ a.labels, isWord label = true) :
    Reads a.render a.expression.tokens := by
  simp only [labels, List.cons_append, List.forall_mem_cons, List.forall_mem_append] at legible
  obtain ⟨known, ⟨parameters, precondition⟩, effect⟩ := legible
  have head : Reads "(:action " [.opening, .word ":action"] := ⟨rfl, rfl⟩
  have typed : Reads ":parameters (" [.word ":parameters", .opening] := ⟨rfl, rfl⟩
  have before : Reads ":precondition " [.word ":precondition"] := ⟨rfl, rfl⟩
  have after : Reads ":effect " [.word ":effect"] := ⟨rfl, rfl⟩
  have named := head.line (tokens_of_isWord known)
  have declared := (named.append typed).listLine (tokens_renderTyped parameters)
  have guarded := (declared.append before).append (reads_renderLine precondition)
  have all := ((guarded.append after).append (reads_renderLine effect)).append reads_close
  refine ⟨all.same.trans ?_, all.ends⟩
  simp [expression]

theorem Predicate.reads_render {p : Predicate} (legible : ∀ label ∈ p.labels,
    isWord label = true) : Reads p.render p.expression.tokens := by
  obtain ⟨known, parameters⟩ := List.forall_mem_cons.mp legible
  have head : Reads "(" [.opening] := ⟨rfl, rfl⟩
  unfold render
  split
  next none =>
    have all := head.listLine (tokens_of_isWord known)
    refine ⟨all.same.trans ?_, all.ends⟩
    simp [expression, List.isEmpty_iff.mp none]
  next =>
    have space : Reads " " [] := ⟨rfl, rfl⟩
    have named := head.enclose (tokens_of_isWord known) space rfl (by simp)
    have all := named.listLine (tokens_renderTyped parameters)
    refine ⟨all.same.trans ?_, all.ends⟩
    simp [expression]

theorem Domain.reads_render {d : Domain} (legible : ∀ label ∈ d.labels, isWord label = true) :
    Reads d.render d.expression.tokens := by
  simp only [labels, List.cons_append, List.forall_mem_cons, List.forall_mem_append,
    List.forall_mem_flatMap] at legible
  obtain ⟨known, ⟨⟨⟨requirements, types⟩, predicates⟩, functions⟩, actions⟩ := legible
  have head : Reads "(define (domain " [.opening, .word "define", .opening, .word "domain"] :=
    ⟨rfl, rfl⟩
  have required : Reads "(:requirements " [.opening, .word ":requirements"] := ⟨rfl, rfl⟩
  have typed : Reads "(:types " [.opening, .word ":types"] := ⟨rfl, rfl⟩
  have declared : Reads "(:predicates\n" [.opening, .word ":predicates"] := ⟨rfl, rfl⟩
  have numeric : Reads "(:functions\n" [.opening, .word ":functions"] := ⟨rfl, rfl⟩
  have bracket : Reads "(" [.opening] := ⟨rfl, rfl⟩
  have gap : Reads "\n" [] := ⟨rfl, rfl⟩
  have words : tokens (spaced d.requirements) =
      Expression.tokensAll (d.requirements.map .word) := by
    rw [tokens_spaced, flatMap_tokens_of_words requirements]
  have symbols := Reads.parts fun p member => Predicate.reads_render (predicates p member)
  have counters : Reads (concat (d.functions.map fun f => "(" ++ f ++ ")\n"))
      (Expression.tokensAll (d.functions.map fun f => .list [.word f])) :=
    Reads.parts fun f member => bracket.listLine (tokens_of_isWord (functions f member))
  have steps := Reads.parts fun a member => gap.append (Action.reads_render (actions a member))
  have first := ((head.listLine (tokens_of_isWord known)).append required).listLine words
  have second := (first.append typed).listLine
    (tokens_renderTyped (List.forall_mem_flatMap.mpr types))
  have third := ((second.append declared).append symbols).append reads_close
  have fourth := ((third.append numeric).append counters).append reads_close
  have all := (fourth.append steps).append reads_close
  refine ⟨all.same.trans ?_, all.ends⟩
  simp [expression]

theorem Object.reads_render {o : Object} (legible : ∀ label ∈ o.labels, isWord label = true) :
    Reads o.render (Expression.tokensAll o.expressions) where
  same := by
    rw [render, tokens_append (.inr rfl),
      tokens_append (.inl (endsDelimited_append_of_ne (by simp) rfl)), tokens_append (.inr rfl),
      tokens_of_isWord (legible o.name (by simp [labels])),
      tokens_of_isWord (legible o.type (by simp [labels]))]
    rfl
  ends := endsDelimited_append_of_ne (by simp) rfl

theorem Problem.reads_render {p : Problem} (legible : ∀ label ∈ p.labels, isWord label = true) :
    Reads p.render p.expression.tokens := by
  simp only [labels, List.cons_append, List.forall_mem_cons, List.forall_mem_append,
    List.forall_mem_flatMap] at legible
  obtain ⟨known, domain, metric, objects, init, goal⟩ := legible
  have head : Reads "(define (problem " [.opening, .word "define", .opening, .word "problem"] :=
    ⟨rfl, rfl⟩
  have domained : Reads "(:domain " [.opening, .word ":domain"] := ⟨rfl, rfl⟩
  have named : Reads "(:objects\n" [.opening, .word ":objects"] := ⟨rfl, rfl⟩
  have given : Reads "(:init\n" [.opening, .word ":init"] := ⟨rfl, rfl⟩
  have asked : Reads "(:goal (and\n" [.opening, .word ":goal", .opening, .word "and"] :=
    ⟨rfl, rfl⟩
  have measured : Reads "(:metric minimize ("
    [.opening, .word ":metric", .word "minimize", .opening] := ⟨rfl, rfl⟩
  have both : Reads "))\n" [.closing, .closing] := ⟨rfl, rfl⟩
  have listed := Reads.lines fun o member => Object.reads_render (objects o member)
  have facts := Reads.parts fun f member => reads_renderLine (init f member)
  have goals := Reads.parts fun f member => reads_renderLine (goal f member)
  have first := ((head.listLine (tokens_of_isWord known)).append domained).listLine
    (tokens_of_isWord domain)
  have second := ((first.append named).append listed).append reads_close
  have third := ((second.append given).append facts).append reads_close
  have fourth := ((third.append asked).append goals).append both
  have fifth := (fourth.append measured).enclose (tokens_of_isWord metric) both rfl (by simp)
  have all := fifth.append reads_close
  refine ⟨all.same.trans ?_, all.ends⟩
  simp [expression]

/-- A text that is one expression and nothing else. -/
structure IsText (text : String) (x : Expression) : Prop where
  read : read? text = some [x]
  balanced : isBalanced text = true

theorem IsText.of_tokens {text : String} {x : Expression} (same : tokens text = x.tokens) :
    IsText text x := by
  have read : read? text = some [x] :=
    read?_eq_some (same.trans (List.append_nil x.tokens).symm)
  exact ⟨read, isBalanced_of_read? read⟩

end AlignPlan.Planning
