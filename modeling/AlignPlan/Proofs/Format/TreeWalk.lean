import AlignPlan.Proofs.Format.FileOrder
import AlignPlan.Proofs.Format.SyntaxTree

/-! Documents by way of syntax trees. A tree may be anything, so whoever walks one has to refuse
trees that lack a part or have one out of place. No tree that was read off a text is refused in
this way: walking it comes to what the blocks of the text come to, the complaint included. -/
namespace AlignPlan

open Format

/-- Why a tree makes no document. -/
inductive Refusal
  /-- The text is to blame, and its author is told where. -/
  | complaint (c : Complaint)
  /-- A node without the parts it should have. -/
  | malformed (message : String) (start stop : Nat)
  /-- A node that is missing or out of place, which nobody is told. -/
  | internal (message : String)

namespace Automaton

def findState (a : Automaton) (n : Node) : Except Refusal Nat :=
  match a.stateIndex? n.text with
  | some state => .ok state
  | none => .error (.complaint ⟨.undeclaredState n.text, n.start, n.stop⟩)

def declareNode (a : Automaton) (n : Node) : Automaton :=
  if n.symbol = .states then n.names.foldl (fun a name => a.addState name.text) a else a

/-- Looks states up one after the other and takes note of each. -/
def eachState (note : Automaton → Nat → Automaton) :
    Automaton → List Node → Except Refusal Automaton
  | a, [] => .ok a
  | a, name :: names =>
    match a.findState name with
    | .error refusal => .error refusal
    | .ok state => (note a state).eachState note names

def applyNode (file : Nat) (a : Automaton) (n : Node) : Except Refusal Automaton :=
  match n.symbol with
  | .states => .ok a
  | .alphabet => .ok (n.names.foldl (fun a name => a.declareSymbol name.text) a)
  | .init =>
    if a.initial.isSome then .error (.complaint ⟨.repeatedInitial, n.start, n.stop⟩)
    else a.eachState setInitial n.names
  | .accept => a.eachState addAccepting n.names
  | .transition =>
    match n.names with
    | [source, symbol, target] =>
      match a.findState source, a.findState target with
      | .error refusal, _ => .error refusal
      | _, .error refusal => .error refusal
      | .ok source, .ok target =>
        .ok ((a.addTransition ⟨source, symbol.text, target⟩).setTransitionSpan
          a.transitions.length ⟨n.start, n.stop, file⟩)
    | _ => .error (.malformed "malformed transition" n.start n.stop)
  | symbol => .error (.internal ("unexpected " ++ symbol.label ++ " in automaton body"))

def applyNodes (file : Nat) : Automaton → List Node → Except Refusal Automaton
  | a, [] => .ok a
  | a, n :: nodes =>
    match a.applyNode file n with
    | .error refusal => .error refusal
    | .ok a => a.applyNodes file nodes

/-- The automaton that the items of a node declare. -/
def ofNodes (file : Nat) (name : String) (n : Node) (items : List Node) :
    Except Refusal Automaton :=
  let declared := items.foldl declareNode
    ((Automaton.empty name).setSpan ⟨n.start, n.stop, file⟩)
  declared.applyNodes file items

end Automaton

namespace Document

def addTraceNode (d : Document) (file : Nat) (n : Node) : Except Refusal Document :=
  match n.children with
  | [] => .error (.internal "trace without an id")
  | token :: items =>
    match Decimal.word64? token.text with
    | none => .error (.complaint ⟨.longTraceId token.text, token.start, token.stop⟩)
    | some id =>
      match Automaton.ofNodes file ("trace " ++ Decimal.render id) n items with
      | .error refusal => .error refusal
      | .ok automaton =>
        if d.traces.any fun t => t.id == id then
          .error (.complaint ⟨.repeatedTrace id, n.start, n.stop⟩)
        else .ok { d with traces := d.traces ++ [⟨id, automaton⟩] }

def addConstraintNode (d : Document) (file : Nat) (n : Node) : Except Refusal Document :=
  match n.children with
  | [] => .error (.internal "constraint without an id")
  | token :: items =>
    match AutomatonId.ofString token.text with
    | .error fault => .error (.complaint ⟨.badConstraintId fault, token.start, token.stop⟩)
    | .ok id =>
      match Automaton.ofNodes file id.text n items with
      | .error refusal => .error refusal
      | .ok automaton => .ok { d with constraints := d.constraints ++ [⟨id, automaton⟩] }

def addNode (d : Document) (file : Nat) (n : Node) : Except Refusal Document :=
  match n.symbol with
  | .trace => d.addTraceNode file n
  | .constraint => d.addConstraintNode file n
  | .endOfInput => .ok d
  | symbol => .error (.internal ("unexpected " ++ symbol.label ++ " at the top level"))

def addNodes (file : Nat) : Document → List Node → Except Refusal Document
  | d, [] => .ok d
  | d, n :: nodes =>
    match d.addNode file n with
    | .error refusal => .error refusal
    | .ok d => d.addNodes file nodes

/-- Reads a text by way of its syntax tree. -/
def ofTree (file : Nat) (text : String) : Except Refusal Document :=
  let start := Cursor.ofString text
  match SyntaxTree.file.read start with
  | some (nodes, _) => empty.addNodes file (nodes.flatMap Node.children)
  | none =>
    let trail := SyntaxTree.file.trail start Trail.start
    .error (.complaint ⟨.expected trail.symbols, trail.offset, trail.offset⟩)

end Document

namespace Automaton

variable {a : Automaton} {file : Nat} {n : Node} {nodes : List Node} {item : Located Item}
  {items : List (Located Item)} {block : Located Block}

theorem findState_ofName (a : Automaton) (token : Token) :
    a.findState (.ofName token) = (a.resolve token).mapError .complaint := by
  simp only [findState, resolve, Node.ofName]
  cases a.stateIndex? token.value <;> rfl

theorem eachState_addAccepting (a : Automaton) (tokens : List Token) :
    a.eachState addAccepting (tokens.map Node.ofName) =
      (a.acceptNamed tokens).mapError .complaint := by
  induction tokens generalizing a with
  | nil => rfl
  | cons token tokens ih =>
    simp only [List.map_cons, eachState, acceptNamed, findState_ofName]
    cases a.resolve token with
    | error c => rfl
    | ok state => exact ih _

theorem foldl_ofName {note : Automaton → String → Automaton} (a : Automaton)
    (tokens : List Token) :
    (tokens.map Node.ofName).foldl (fun a name => note a name.text) a =
      tokens.foldl (fun a name => note a name.value) a :=
  List.foldl_map

/-- Nodes that show items are well-formed. -/
theorem applyNode_of_shows (h : n.Shows item) :
    a.applyNode file n = (a.apply file item).mapError .complaint := by
  obtain ⟨value, start, stop⟩ := item
  obtain ⟨symbol, rfl, rfl, names⟩ := h
  cases value with
  | states tokens => simp only [applyNode, symbol, Item.symbol, apply, Except.mapError]
  | alphabet tokens =>
    simp only [applyNode, symbol, names, Item.symbol, Item.tokens, apply, Except.mapError,
      foldl_ofName]
  | init token =>
    simp only [applyNode, symbol, names, Item.symbol, Item.tokens, apply, List.map_cons,
      List.map_nil, eachState, findState_ofName]
    split
    · rfl
    · cases a.resolve token <;> rfl
  | accept tokens =>
    simp only [applyNode, symbol, names, Item.symbol, Item.tokens, apply, eachState_addAccepting]
  | transition source symbol' target =>
    simp only [applyNode, symbol, names, Item.symbol, Item.tokens, apply, List.map_cons,
      List.map_nil, findState_ofName]
    cases a.resolve source with
    | error c => rfl
    | ok source => cases a.resolve target <;> rfl

theorem declareNode_of_shows (h : n.Shows item) : a.declareNode n = a.declareStates item := by
  obtain ⟨value, start, stop⟩ := item
  obtain ⟨symbol, -, -, names⟩ := h
  cases value with
  | states tokens =>
    simp only [declareNode, symbol, names, Item.symbol, Item.tokens, declareStates, foldl_ofName,
      if_true]
  | alphabet | init | accept | transition =>
    exact if_neg (by simp [symbol, Item.symbol])

theorem foldl_declareNode (h : List.Forall₂ Node.Shows nodes items) :
    nodes.foldl declareNode a = items.foldl declareStates a := by
  induction h generalizing a with
  | nil => rfl
  | cons first _ ih => rw [List.foldl_cons, List.foldl_cons, declareNode_of_shows first, ih]

theorem applyNodes_of_shows (h : List.Forall₂ Node.Shows nodes items) :
    a.applyNodes file nodes = (a.applyAll file items).mapError .complaint := by
  induction h generalizing a with
  | nil => rfl
  | cons first _ ih =>
    simp only [applyNodes, applyAll, applyNode_of_shows first]
    cases a.apply file _ with
    | error c => rfl
    | ok next => exact ih

theorem ofNodes_of_shows {name : String} (start : n.start = block.start)
    (stop : n.stop = block.stop) (h : List.Forall₂ Node.Shows nodes block.value.items) :
    ofNodes file name n nodes = (ofBlock file name block).mapError .complaint := by
  simp only [ofNodes, ofBlock, start, stop, foldl_declareNode h, applyNodes_of_shows h]

end Automaton

namespace Document

variable {d : Document} {file : Nat} {n ended : Node} {nodes : List Node} {block : Located Block}
  {blocks : List (Located Block)}

theorem addTraceNode_of_shows (h : n.ShowsBlock block) :
    d.addTraceNode file n = (d.addTrace file block).mapError .complaint := by
  obtain ⟨_, start, stop, token, items, children, id, idStart, idStop, shows⟩ := h
  simp only [addTraceNode, addTrace, children, id, idStart, idStop]
  cases Decimal.word64? block.value.id.value with
  | none => rfl
  | some number =>
    simp only [Automaton.ofNodes_of_shows start stop shows, start, stop]
    cases Automaton.ofBlock file _ block with
    | error c => rfl
    | ok a =>
      simp only [Except.mapError]
      split <;> rfl

theorem addConstraintNode_of_shows (h : n.ShowsBlock block) :
    d.addConstraintNode file n = (d.addConstraint file block).mapError .complaint := by
  obtain ⟨_, start, stop, token, items, children, id, idStart, idStop, shows⟩ := h
  simp only [addConstraintNode, addConstraint, children, id, idStart, idStop]
  cases AutomatonId.ofString block.value.id.value with
  | error fault => rfl
  | ok id =>
    simp only [Automaton.ofNodes_of_shows start stop shows]
    cases Automaton.ofBlock file id.text block <;> rfl

theorem addNode_of_shows (h : n.ShowsBlock block) :
    d.addNode file n = (d.addBlock file block).mapError .complaint := by
  have symbol := h.symbol
  cases kind : block.value.kind with
  | trace =>
    rw [kind, BlockKind.symbol] at symbol
    simp only [addNode, addBlock, symbol, kind, addTraceNode_of_shows h]
  | constraint =>
    rw [kind, BlockKind.symbol] at symbol
    simp only [addNode, addBlock, symbol, kind, addConstraintNode_of_shows h]

/-- The end of the text adds nothing to what the blocks before it have. -/
theorem addNodes_of_shows (h : List.Forall₂ Node.ShowsBlock nodes blocks)
    (last : ended.symbol = .endOfInput) :
    d.addNodes file (nodes ++ [ended]) = (d.addBlocks file blocks).mapError .complaint := by
  induction h generalizing d with
  | nil => simp only [List.nil_append, addNodes, addNode, last, addBlocks, Except.mapError]
  | cons first _ ih =>
    simp only [List.cons_append, addNodes, addBlocks, addNode_of_shows first]
    cases d.addBlock file _ with
    | error c => rfl
    | ok d => exact ih

/-- Reading a text by way of its tree is reading it, and the text is all that is ever blamed. -/
theorem ofTree_eq (file : Nat) (text : String) :
    ofTree file text = (parse file text).mapError .complaint := by
  rcases SyntaxTree.agrees_file.read (Cursor.ofString text) with
    ⟨first, second⟩ | ⟨nodes, blocks, c, first, second, n, shown, ended, rfl, children, last, shows⟩
  · unfold ofTree parse
    extract_lets start trail
    rw [readBlocks_eq_error second, first, ← SyntaxTree.agrees_file.trail]
    rfl
  · rw [parse_of_readBlocks (readBlocks_eq_ok second)]
    unfold ofTree
    extract_lets start trail
    rw [first]
    simp only [List.flatMap_singleton, children]
    exact addNodes_of_shows shows last

/-- Other trees are refused. -/
example : empty.addNode 0 ⟨.trace, "trace \x7b\x7d", 0, 8, []⟩ =
    .error (.internal "trace without an id") := rfl

end Document

end AlignPlan
