import AlignPlan.Proofs.Format.Language
import AlignPlan.Proofs.Format.Locality
import Mathlib.Data.List.Forall2

/-! Syntax trees. A reader that knows the grammar and nothing else makes a node of every symbol;
fixed texts leave none. It reads what the blocks of a file are read from and fails where they fail,
and its trees have the parts that blocks and items have. -/
namespace AlignPlan.Format

/-- A symbol, the text that was read as it and the symbols in it. -/
structure Node where
  symbol : Symbol
  text : String
  start : Nat
  stop : Nat
  children : List Node

namespace SyntaxTree

open Phrase

/-- A word as a node. -/
def leaf (symbol : Symbol) (p : Phrase Token) : Phrase (List Node) :=
  p.map fun token => [⟨symbol, token.value, token.start, token.stop, []⟩]

/-- A symbol that is always the same text. -/
def mark (symbol : Symbol) (text : String) (p : Phrase Unit) : Phrase (List Node) :=
  p.located.map fun x => [⟨symbol, text, x.start, x.stop, []⟩]

theorem consumes_leaf {p : Phrase Token} (h : p.Consumes) (symbol : Symbol) :
    (leaf symbol p).Consumes := h.map _

theorem consumes_mark {p : Phrase Unit} (h : p.Consumes) (symbol : Symbol) (text : String) :
    (mark symbol text p).Consumes := h.located.map _

def fixed (text : String) : Phrase (List Node) := (literal text).map fun _ => []

def both (p q : Phrase (List Node)) : Phrase (List Node) :=
  (p.andThen q).map fun (first, second) => first ++ second

def all (p : Phrase (List Node)) (consumes : p.Consumes) : Phrase (List Node) :=
  (p.many consumes).map List.flatten

/-- A symbol made of smaller ones as a node, with these as its children. -/
def group (symbol : Symbol) (p : Phrase (List Node)) : Phrase (List Node) where
  read c := (p.read c).map fun (children, c') =>
    ([⟨symbol, String.ofList (c.rest.take (c.rest.length - c'.rest.length)), c.offset, c'.offset,
      children⟩], c')
  trail := (named symbol p).trail
  shrinks h := by
    obtain ⟨⟨children, c'⟩, found, same⟩ := Option.map_eq_some_iff.mp h
    cases same
    exact p.shrinks found

theorem consumes_group {p : Phrase (List Node)} (h : p.Consumes) (symbol : Symbol) :
    (group symbol p).Consumes := by
  intro c nodes c' mapped
  obtain ⟨⟨children, after⟩, found, same⟩ := Option.map_eq_some_iff.mp mapped
  cases same
  exact h _ _ _ found

theorem consumes_both {p : Phrase (List Node)} (h : p.Consumes) (q : Phrase (List Node)) :
    (both p q).Consumes :=
  (h.andThen q).map _

def name : Phrase (List Node) := leaf .name Grammar.name

theorem consumes_name : name.Consumes := consumes_leaf (Grammar.consumes_word _ _) _

def keyword (symbol : Symbol) (text : String) : Phrase (List Node) :=
  mark symbol text (Grammar.keyword symbol text)

theorem consumes_keyword (symbol : Symbol) {text : String} (nonempty : text.toList ≠ []) :
    (keyword symbol text).Consumes :=
  consumes_mark (Grammar.consumes_keyword symbol nonempty) _ _

def names : Phrase (List Node) := both (all name consumes_name) (fixed ";")

def states : Phrase (List Node) := group .states (both (keyword .statesWord "states") names)

def alphabet : Phrase (List Node) := group .alphabet (both (keyword .alphabetWord "alphabet") names)

def init : Phrase (List Node) :=
  group .init (both (keyword .initWord "init") (both name (fixed ";")))

def accept : Phrase (List Node) := group .accept (both (keyword .acceptWord "accept") names)

def transition : Phrase (List Node) :=
  group .transition <| both name <| both (fixed "--") <| both name <| both (fixed "->") <|
    both name (fixed ";")

/-- Items are symbols of different kinds and no symbol of their own. -/
def item : Phrase (List Node) :=
  states.orElse (alphabet.orElse (init.orElse (accept.orElse transition)))

theorem consumes_item : item.Consumes := by
  refine Consumes.orElse ?_ (Consumes.orElse ?_ (Consumes.orElse ?_ (Consumes.orElse ?_ ?_)))
  · exact consumes_group (consumes_both (consumes_keyword _ (by decide)) _) _
  · exact consumes_group (consumes_both (consumes_keyword _ (by decide)) _) _
  · exact consumes_group (consumes_both (consumes_keyword _ (by decide)) _) _
  · exact consumes_group (consumes_both (consumes_keyword _ (by decide)) _) _
  · exact consumes_group (consumes_both consumes_name _) _

def body : Phrase (List Node) := both (fixed "\x7b") (both (all item consumes_item) (fixed "\x7d"))

def block (symbol : Symbol) (text : String) (id : Phrase (List Node)) : Phrase (List Node) :=
  group symbol (both (fixed text) (both id body))

theorem consumes_block (symbol : Symbol) {text : String} (nonempty : text.toList ≠ [])
    (id : Phrase (List Node)) : (block symbol text id).Consumes :=
  consumes_group (consumes_both ((consumes_literal nonempty).map _) _) _

def trace : Phrase (List Node) := block .trace "trace" (leaf .number Grammar.number)

def constraint : Phrase (List Node) := block .constraint "constraint" (leaf .ident Grammar.ident)

theorem consumes_anyBlock : (trace.orElse constraint).Consumes :=
  (consumes_block _ (by decide) _).orElse (consumes_block _ (by decide) _)

def endOfInput : Phrase (List Node) := mark .endOfInput "" Grammar.endOfInput

def file : Phrase (List Node) :=
  group .file <|
    both (here.map fun _ => []) (both (all (trace.orElse constraint) consumes_anyBlock) endOfInput)

end SyntaxTree

/-- The names in an item, which its keyword is none of. -/
def Node.names (n : Node) : List Node := n.children.filter fun child => child.symbol = .name

namespace Phrase

section Agreement

variable {α β γ δ : Type} {R : Nat → Nat → α → β → Prop} {S : Nat → Nat → γ → δ → Prop}

/-- Two phrases that are read off the same texts and fail in the same places. What they read is
related, given where it begins and ends. -/
structure Agrees (p : Phrase α) (q : Phrase β) (R : Nat → Nat → α → β → Prop) : Prop where
  read : ∀ c, (p.read c = none ∧ q.read c = none) ∨ ∃ x y c', p.read c = some (x, c') ∧
    q.read c = some (y, c') ∧ R c.offset c'.offset x y
  trail : ∀ c t, p.trail c t = q.trail c t

theorem agrees_self (p : Phrase α) : p.Agrees p fun _ _ x y => x = y where
  read c := by
    cases found : p.read c with
    | none => exact .inl ⟨rfl, rfl⟩
    | some result => exact .inr ⟨result.1, result.1, result.2, rfl, rfl, rfl⟩
  trail _ _ := rfl

theorem Agrees.mono {p : Phrase α} {q : Phrase β} {R' : Nat → Nat → α → β → Prop}
    (h : p.Agrees q R) (weaken : ∀ i j x y, R i j x y → R' i j x y) : p.Agrees q R' where
  read c := (h.read c).imp_right fun ⟨x, y, c', first, second, related⟩ =>
    ⟨x, y, c', first, second, weaken _ _ x y related⟩
  trail := h.trail

theorem Agrees.isSome_eq {p : Phrase α} {q : Phrase β} (h : p.Agrees q R) (c : Cursor) :
    (p.read c).isSome = (q.read c).isSome := by
  rcases h.read c with ⟨first, second⟩ | ⟨x, y, c', first, second, _⟩
  · rw [first, second]
    rfl
  · rw [first, second]
    rfl

theorem Agrees.map_left {p : Phrase α} {q : Phrase β} {S : Nat → Nat → γ → β → Prop}
    (h : p.Agrees q R) (f : α → γ) (image : ∀ i j x y, R i j x y → S i j (f x) y) :
    (p.map f).Agrees q S where
  read c := by
    rcases h.read c with ⟨first, second⟩ | ⟨x, y, c', first, second, related⟩
    · exact .inl ⟨by simp [Phrase.map, first], second⟩
    · exact .inr ⟨f x, y, c', read_map_iff.mpr ⟨x, first, rfl⟩, second, image _ _ x y related⟩
  trail := h.trail

theorem Agrees.map_right {p : Phrase α} {q : Phrase β} {S : Nat → Nat → α → δ → Prop}
    (h : p.Agrees q R) (f : β → δ) (image : ∀ i j x y, R i j x y → S i j x (f y)) :
    p.Agrees (q.map f) S where
  read c := by
    rcases h.read c with ⟨first, second⟩ | ⟨x, y, c', first, second, related⟩
    · exact .inl ⟨first, by simp [Phrase.map, second]⟩
    · exact .inr ⟨x, f y, c', first, read_map_iff.mpr ⟨y, second, rfl⟩, image _ _ x y related⟩
  trail := h.trail

theorem Agrees.located_left {p : Phrase α} {q : Phrase β} (h : p.Agrees q R) :
    p.located.Agrees q fun i j x y => x.start = i ∧ x.stop = j ∧ R i j x.value y where
  read c := by
    rcases h.read c with ⟨first, second⟩ | ⟨x, y, c', first, second, related⟩
    · exact .inl ⟨by simp [Phrase.located, first], second⟩
    · exact .inr ⟨⟨x, c.offset, c'.offset⟩, y, c', read_located_iff.mpr ⟨first, rfl, rfl⟩, second,
        rfl, rfl, related⟩
  trail := h.trail

theorem Agrees.located_right {p : Phrase α} {q : Phrase β} (h : p.Agrees q R) :
    p.Agrees q.located fun i j x y => y.start = i ∧ y.stop = j ∧ R i j x y.value where
  read c := by
    rcases h.read c with ⟨first, second⟩ | ⟨x, y, c', first, second, related⟩
    · exact .inl ⟨first, by simp [Phrase.located, second]⟩
    · exact .inr ⟨x, ⟨y, c.offset, c'.offset⟩, c', first, read_located_iff.mpr ⟨second, rfl, rfl⟩,
        rfl, rfl, related⟩
  trail := h.trail

theorem Agrees.andThen {p : Phrase α} {p' : Phrase β} {q : Phrase γ} {q' : Phrase δ}
    (hp : p.Agrees p' R) (hq : q.Agrees q' S) : (p.andThen q).Agrees (p'.andThen q')
      fun _ _ x y => (∃ i j, R i j x.1 y.1) ∧ ∃ i j, S i j x.2 y.2 where
  read c := by
    simp only [Phrase.andThen, readThen]
    rcases hp.read c with ⟨first, first'⟩ | ⟨x, x', between, first, first', related⟩
    · exact .inl (by simp [first, first'])
    · rcases hq.read between.skip with ⟨second, second'⟩ | ⟨y, y', c', second, second', related'⟩
      · exact .inl (by simp [first, first', second, second'])
      · exact .inr ⟨(x, y), (x', y'), c', by simp [first, second], by simp [first', second'],
          ⟨_, _, related⟩, ⟨_, _, related'⟩⟩
  trail c t := by
    simp only [Phrase.andThen, hp.trail]
    rcases hp.read c with ⟨first, first'⟩ | ⟨x, x', between, first, first', _⟩
    · simp only [first, first']
    · simp only [first, first', hq.trail]

theorem Agrees.orElse {p q : Phrase α} {p' q' : Phrase β} (hp : p.Agrees p' R)
    (hq : q.Agrees q' R) : (p.orElse q).Agrees (p'.orElse q') R where
  read c := by
    simp only [Phrase.orElse]
    rcases hp.read c with ⟨first, first'⟩ | ⟨x, x', c', first, first', related⟩
    · rw [first, first', Option.none_or, Option.none_or]
      exact hq.read c
    · exact .inr ⟨x, x', c', by simp [first], by simp [first'], related⟩
  trail c t := by
    simp only [Phrase.orElse, hp.trail, hp.isSome_eq, hq.trail]

section Repetition

variable {p : Phrase α} {q : Phrase β} (h : p.Agrees q R) (hp : p.Consumes) (hq : q.Consumes)

include h

theorem Agrees.readMore (c : Cursor) : (p.readMore hp c).2 = (q.readMore hq c).2 ∧
    List.Forall₂ (fun x y => ∃ i j, R i j x y) (p.readMore hp c).1 (q.readMore hq c).1 := by
  fun_induction Phrase.readMore q hq c with
  | case1 c missing =>
    rcases h.read c.skip with ⟨first, _⟩ | ⟨x, y, c', _, second, _⟩
    · rw [Phrase.readMore.eq_def, first]
      exact ⟨rfl, .nil⟩
    · cases second.symm.trans missing
  | case2 c y next found ys after more ih =>
    rcases h.read c.skip with ⟨_, second⟩ | ⟨x, y', c', first, second, related⟩
    · cases second.symm.trans found
    · cases second.symm.trans found
      rw [Phrase.readMore.eq_def, first]
      rw [more] at ih
      exact ⟨ih.1, .cons ⟨_, _, related⟩ ih.2⟩

theorem Agrees.trailMore (c : Cursor) (t : Trail) : p.trailMore hp c t = q.trailMore hq c t := by
  fun_induction Phrase.trailMore q hq c t with
  | case1 c t later missing =>
    rcases h.read c.skip with ⟨first, _⟩ | ⟨x, y, c', _, second, _⟩
    · rw [Phrase.trailMore.eq_def, first, h.trail]
    · cases second.symm.trans missing
  | case2 c t later y next found ih =>
    rcases h.read c.skip with ⟨_, second⟩ | ⟨x, y', c', first, second, _⟩
    · cases second.symm.trans found
    · cases second.symm.trans found
      rw [Phrase.trailMore.eq_def, first, h.trail]
      exact ih

theorem Agrees.many : (p.many hp).Agrees (q.many hq)
    fun _ _ xs ys => List.Forall₂ (fun x y => ∃ i j, R i j x y) xs ys where
  read c := by
    simp only [Phrase.many]
    rcases h.read c with ⟨first, second⟩ | ⟨x, y, next, first, second, related⟩
    · exact .inr ⟨[], [], c, by simp [first], by simp [second], .nil⟩
    · obtain ⟨same, others⟩ := h.readMore hp hq next
      refine .inr ⟨x :: (p.readMore hp next).1, y :: (q.readMore hq next).1,
        (q.readMore hq next).2, ?_, ?_, .cons ⟨_, _, related⟩ others⟩
      · simp only [first, same]
      · simp only [second]
  trail c t := by
    simp only [Phrase.many, h.trail]
    rcases h.read c with ⟨first, second⟩ | ⟨x, y, next, first, second, _⟩
    · simp only [first, second]
    · simp only [first, second, h.trailMore hp hq]

end Repetition

end Agreement

end Phrase

/-- The node of a name. -/
def Node.ofName (token : Token) : Node := ⟨.name, token.value, token.start, token.stop, []⟩

def Item.symbol : Item → Symbol
  | .states _ => .states
  | .alphabet _ => .alphabet
  | .init _ => .init
  | .accept _ => .accept
  | .transition _ _ _ => .transition

def BlockKind.symbol : BlockKind → Symbol
  | .trace => .trace
  | .constraint => .constraint

/-- A node with the names of an item, in the place that the item has. -/
structure Node.Shows (n : Node) (item : Located Item) : Prop where
  symbol : n.symbol = item.value.symbol
  start : n.start = item.start
  stop : n.stop = item.stop
  names : n.names = item.value.tokens.map Node.ofName

/-- A node whose first child is the id of a block and whose others are its items. -/
structure Node.ShowsBlock (n : Node) (b : Located Block) : Prop where
  symbol : n.symbol = b.value.kind.symbol
  start : n.start = b.start
  stop : n.stop = b.stop
  children : ∃ id items, n.children = id :: items ∧ id.text = b.value.id.value ∧
    id.start = b.value.id.start ∧ id.stop = b.value.id.stop ∧
    List.Forall₂ Node.Shows items b.value.items

namespace SyntaxTree

open Phrase

variable {α β γ : Type} {p q : Phrase (List Node)} {p' : Phrase α} {q' : Phrase β}
  {R : Nat → Nat → List Node → α → Prop} {S : Nat → Nat → List Node → β → Prop}

theorem agrees_leaf (symbol : Symbol) (p : Phrase Token) : (leaf symbol p).Agrees p
    fun _ _ nodes token => nodes = [⟨symbol, token.value, token.start, token.stop, []⟩] :=
  (agrees_self p).map_left _ fun _ _ _ _ same => by rw [same]

theorem agrees_mark (symbol : Symbol) (text : String) (p : Phrase Unit) :
    (mark symbol text p).Agrees p fun _ _ nodes _ => ∃ n, nodes = [n] ∧ n.symbol = symbol :=
  (agrees_self p).located_left.map_left _ fun _ _ _ _ _ => ⟨_, rfl, rfl⟩

theorem agrees_fixed (text : String) :
    (fixed text).Agrees (literal text) fun _ _ nodes _ => nodes = [] :=
  (agrees_self _).map_left _ fun _ _ _ _ _ => rfl

theorem agrees_group (h : p.Agrees p' R) (symbol : Symbol) :
    (group symbol p).Agrees (named symbol p') fun i j nodes x =>
      ∃ n, nodes = [n] ∧ n.symbol = symbol ∧ n.start = i ∧ n.stop = j ∧ R i j n.children x where
  read c := by
    rcases h.read c with ⟨first, second⟩ | ⟨children, x, c', first, second, related⟩
    · exact .inl ⟨by simp [group, first], second⟩
    · let n : Node := ⟨symbol, String.ofList (c.rest.take (c.rest.length - c'.rest.length)),
        c.offset, c'.offset, children⟩
      exact .inr ⟨[n], x, c', by simp [group, first, n], second, n, rfl, rfl, rfl, rfl, related⟩
  trail c t := by
    simp only [group, named, h.trail, h.isSome_eq]

theorem agrees_both (hp : p.Agrees p' R) (hq : q.Agrees q' S) :
    (both p q).Agrees (p'.andThen q') fun _ _ nodes x => ∃ first second,
      nodes = first ++ second ∧ (∃ i j, R i j first x.1) ∧ ∃ i j, S i j second x.2 :=
  (hp.andThen hq).map_left _ fun _ _ nodes _ related => ⟨nodes.1, nodes.2, rfl, related⟩

/-- A part that leaves no node. -/
theorem agrees_before {p' : Phrase Unit} {P : List Node → β → Prop}
    (hp : p.Agrees p' fun _ _ nodes _ => nodes = []) (hq : q.Agrees q' fun _ _ => P) :
    (both p q).Agrees (p'.before q') fun _ _ => P := by
  refine (agrees_both hp hq).map_right _ fun _ _ _ _ related => ?_
  obtain ⟨_, _, rfl, ⟨_, _, rfl⟩, _, _, fits⟩ := related
  exact fits

theorem agrees_closedBy {q' : Phrase Unit} {P : List Node → α → Prop}
    (hp : p.Agrees p' fun _ _ => P) (hq : q.Agrees q' fun _ _ nodes _ => nodes = []) :
    (both p q).Agrees (p'.closedBy q') fun _ _ => P := by
  refine (agrees_both hp hq).map_right _ fun _ _ _ _ related => ?_
  obtain ⟨_, _, rfl, ⟨_, _, fits⟩, _, _, rfl⟩ := related
  rwa [List.append_nil]

/-- Repetitions of what leaves one node each. -/
theorem agrees_all {D : Node → α → Prop} (consumes : p.Consumes) (consumes' : p'.Consumes)
    (h : p.Agrees p' fun _ _ nodes x => ∃ n, nodes = [n] ∧ D n x) :
    (all p consumes).Agrees (p'.many consumes') fun _ _ nodes xs => List.Forall₂ D nodes xs := by
  refine (h.many consumes consumes').map_left _ fun _ _ groups xs related => ?_
  induction related with
  | nil => exact .nil
  | cons first _ ih =>
    obtain ⟨_, _, n, rfl, shows⟩ := first
    exact .cons shows ih

theorem agrees_name :
    name.Agrees Grammar.name fun _ _ nodes token => nodes = [Node.ofName token] :=
  agrees_leaf .name Grammar.name

theorem agrees_names : names.Agrees Grammar.names fun _ _ nodes tokens =>
    nodes = tokens.map Node.ofName := by
  have each : name.Agrees Grammar.name fun _ _ nodes token =>
      ∃ n, nodes = [n] ∧ n = Node.ofName token :=
    agrees_name.mono fun _ _ _ _ same => ⟨_, same, rfl⟩
  have list := agrees_all consumes_name (Grammar.consumes_word _ _) each
  refine agrees_closedBy (list.mono fun _ _ nodes tokens related => ?_) (agrees_fixed ";")
  rwa [← List.forall₂_map_right_iff, List.forall₂_eq_eq_eq] at related

/-- One node, which shows the item that was read there. -/
def OneShown (start stop : Nat) (nodes : List Node) (item : Item) : Prop :=
  ∃ n, nodes = [n] ∧ n.Shows ⟨item, start, stop⟩

/-- What is left of the parts of an item are its names. -/
theorem shows_of_group {symbol : Symbol} {p' : Phrase Item}
    (h : p.Agrees p' fun _ _ nodes item => item.symbol = symbol ∧
      nodes.filter (fun n => n.symbol = .name) = item.tokens.map Node.ofName) :
    (group symbol p).Agrees (named symbol p') OneShown := by
  refine (agrees_group h symbol).mono fun _ _ _ item related => ?_
  obtain ⟨n, rfl, rfl, rfl, rfl, same, names⟩ := related
  exact ⟨n, rfl, same.symm, rfl, rfl, names⟩

theorem filter_ofName (tokens : List Token) :
    (tokens.map Node.ofName).filter (fun n => n.symbol = .name) = tokens.map Node.ofName := by
  simp [Node.ofName]

/-- Items that are led by a word of the grammar have names as their other parts. -/
theorem agrees_led {symbol wordSymbol : Symbol} {text : String} {f : α → Item}
    (led : wordSymbol ≠ .name) (made : ∀ x, (f x).symbol = symbol)
    (hp : p.Agrees p' fun _ _ nodes x => nodes = (f x).tokens.map Node.ofName) :
    (group symbol (both (keyword wordSymbol text) p)).Agrees
      (named symbol ((before (Grammar.keyword wordSymbol text) p').map f)) OneShown := by
  have parts : (both (keyword wordSymbol text) p).Agrees
      (before (Grammar.keyword wordSymbol text) p') fun _ _ nodes x =>
        ∃ n, n.symbol = wordSymbol ∧ nodes = n :: (f x).tokens.map Node.ofName := by
    refine (agrees_both (agrees_mark wordSymbol text _) hp).map_right _ fun _ _ _ _ related => ?_
    obtain ⟨_, _, rfl, ⟨_, _, n, rfl, word⟩, _, _, rfl⟩ := related
    exact ⟨n, word, rfl⟩
  refine shows_of_group (parts.map_right f fun _ _ nodes x related => ⟨made x, ?_⟩)
  obtain ⟨n, word, rfl⟩ := related
  rw [List.filter_cons_of_neg (by simpa [word] using led), filter_ofName]

theorem agrees_init : init.Agrees Grammar.init OneShown :=
  agrees_led (by decide) (fun _ => rfl) (agrees_closedBy agrees_name (agrees_fixed ";"))

theorem agrees_transition : transition.Agrees Grammar.transition OneShown := by
  have last := agrees_closedBy agrees_name (agrees_fixed ";")
  have arrow := agrees_before (agrees_fixed "->") last
  have middle := agrees_both agrees_name arrow
  have dashes := agrees_before (agrees_fixed "--") middle
  refine shows_of_group ((agrees_both agrees_name dashes).map_right _ fun _ _ nodes x related => ?_)
  obtain ⟨_, _, rfl, ⟨_, _, rfl⟩, _, _, _, _, rfl, ⟨_, _, rfl⟩, _, _, rfl⟩ := related
  exact ⟨rfl, filter_ofName [x.1, x.2.1, x.2.2]⟩

theorem agrees_item : item.Agrees Grammar.item fun _ _ nodes item =>
    ∃ n, nodes = [n] ∧ n.Shows item := by
  have states : states.Agrees Grammar.states OneShown :=
    agrees_led (by decide) (fun _ => rfl) agrees_names
  have alphabet : alphabet.Agrees Grammar.alphabet OneShown :=
    agrees_led (by decide) (fun _ => rfl) agrees_names
  have accept : accept.Agrees Grammar.accept OneShown :=
    agrees_led (by decide) (fun _ => rfl) agrees_names
  have any := states.orElse (alphabet.orElse (agrees_init.orElse (accept.orElse agrees_transition)))
  refine any.located_right.mono fun _ _ nodes item related => ?_
  obtain ⟨rfl, rfl, shows⟩ := related
  exact shows

theorem agrees_body : body.Agrees Grammar.body fun _ _ nodes items =>
    List.Forall₂ Node.Shows nodes items :=
  agrees_before (agrees_fixed "\x7b")
    (agrees_closedBy (agrees_all consumes_item Grammar.consumes_item agrees_item)
      (agrees_fixed "\x7d"))

theorem agrees_block (kind : BlockKind) {text : String} {symbol : Symbol} {id : Phrase Token} :
    (block kind.symbol text (leaf symbol id)).Agrees (Grammar.block kind kind.symbol text id)
      fun _ _ nodes b => ∃ n, nodes = [n] ∧ n.ShowsBlock b := by
  have inner := agrees_before (agrees_fixed text) (agrees_both (agrees_leaf symbol id) agrees_body)
  have made := inner.map_right (fun part => (⟨kind, part.1, part.2⟩ : Block))
    (S := fun _ _ nodes b => b.kind = kind ∧ ∃ n items, nodes = n :: items ∧ n.text = b.id.value ∧
      n.start = b.id.start ∧ n.stop = b.id.stop ∧ List.Forall₂ Node.Shows items b.items)
    fun _ _ nodes x related => by
      obtain ⟨_, items, rfl, ⟨_, _, rfl⟩, _, _, shows⟩ := related
      exact ⟨rfl, _, items, rfl, rfl, rfl, rfl, shows⟩
  refine (agrees_group made kind.symbol).located_right.mono fun _ _ nodes b related => ?_
  obtain ⟨rfl, rfl, n, rfl, symbol, start, stop, same, children⟩ := related
  exact ⟨n, rfl, by rw [symbol, same], start, stop, children⟩

theorem agrees_file : file.Agrees Grammar.file fun _ _ nodes blocks =>
    ∃ n shown ended, nodes = [n] ∧ n.children = shown ++ [ended] ∧ ended.symbol = .endOfInput ∧
      List.Forall₂ Node.ShowsBlock shown blocks := by
  have trace : trace.Agrees Grammar.trace fun _ _ nodes b =>
      ∃ n, nodes = [n] ∧ n.ShowsBlock b := agrees_block .trace
  have constraint : constraint.Agrees Grammar.constraint fun _ _ nodes b =>
      ∃ n, nodes = [n] ∧ n.ShowsBlock b := agrees_block .constraint
  have blocks := agrees_all consumes_anyBlock Grammar.consumes_anyBlock (trace.orElse constraint)
  have start : (here.map fun _ => ([] : List Node)).Agrees here fun _ _ nodes _ => nodes = [] :=
    (agrees_self here).map_left _ fun _ _ _ _ _ => rfl
  have ended := agrees_mark .endOfInput "" Grammar.endOfInput
  have whole := (agrees_both blocks ended).map_right Prod.fst
    (S := fun _ _ nodes blocks => ∃ shown ended, nodes = shown ++ [ended] ∧
      ended.symbol = .endOfInput ∧ List.Forall₂ Node.ShowsBlock shown blocks)
    fun _ _ nodes x related => by
      obtain ⟨shown, _, rfl, ⟨_, _, shows⟩, _, _, n, rfl, last⟩ := related
      exact ⟨shown, n, rfl, last, shows⟩
  refine (agrees_group (agrees_before start whole) .file).mono fun _ _ nodes blocks related => ?_
  obtain ⟨n, rfl, _, _, _, shown, ended, children, last, shows⟩ := related
  exact ⟨n, shown, ended, rfl, children, last, shows⟩

end SyntaxTree

end AlignPlan.Format
