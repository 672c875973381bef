import AlignPlan.Format.Document
import AlignPlan.Proofs.Lists

/-! Which block of a file declares what. Blocks of traces declare the traces in order, blocks of
constraints the constraints, and every automaton keeps the place of its block. -/
namespace AlignPlan

open Format (Token Item Block Located)

namespace Automaton

variable {a a' : Automaton} {file : Nat}

/-- Automata that are reported on alike, and at one place. -/
def Headed (a a' : Automaton) : Prop := a'.name = a.name ∧ a'.span = a.span

theorem Headed.trans {b : Automaton} (first : a.Headed b) (second : b.Headed a') : a.Headed a' :=
  ⟨second.1.trans first.1, second.2.trans first.2⟩

theorem headed_foldl {α : Type} {f : Automaton → α → Automaton}
    (each : ∀ (a : Automaton) (x : α), a.Headed (f a x)) (xs : List α) (a : Automaton) :
    a.Headed (xs.foldl f a) :=
  List.foldlRecOn xs f ⟨rfl, rfl⟩ fun b headed x _ => headed.trans (each b x)

theorem headed_declareStates (a : Automaton) (item : Located Item) :
    a.Headed (a.declareStates item) := by
  unfold declareStates
  split
  · apply headed_foldl
    exact fun b name => ⟨rfl, rfl⟩
  · exact ⟨rfl, rfl⟩

theorem headed_acceptNamed {names : List Token} (h : a.acceptNamed names = .ok a') :
    a.Headed a' := by
  fun_induction Automaton.acceptNamed a names with
  | case1 => cases h; exact ⟨rfl, rfl⟩
  | case2 => cases h
  | case3 a name names state found ih => exact ih h

theorem headed_apply {item : Located Item} (h : a.apply file item = .ok a') : a.Headed a' := by
  unfold apply at h
  cases value : item.value with
  | states names =>
    simp only [value] at h
    cases h
    exact ⟨rfl, rfl⟩
  | alphabet names =>
    simp only [value] at h
    cases h
    apply headed_foldl
    exact fun b name => ⟨rfl, rfl⟩
  | init name =>
    simp only [value] at h
    split at h
    · cases h
    · split at h <;> cases h
      exact ⟨rfl, rfl⟩
  | accept names =>
    simp only [value] at h
    exact headed_acceptNamed h
  | transition source symbol target =>
    simp only [value] at h
    split at h <;> cases h
    exact ⟨rfl, rfl⟩

theorem headed_applyAll {items : List (Located Item)} (h : a.applyAll file items = .ok a') :
    a.Headed a' := by
  fun_induction applyAll file a items with
  | case1 => cases h; exact ⟨rfl, rfl⟩
  | case2 => cases h
  | case3 a item items b applied ih => exact (headed_apply applied).trans (ih h)

/-- An automaton is known by the name it was given and by the place of its block. -/
theorem head_of_ofBlock {name : String} {block : Located Block}
    (h : ofBlock file name block = .ok a) :
    a.name = name ∧ a.span = some ⟨block.start, block.stop, file⟩ :=
  (headed_foldl headed_declareStates block.value.items _).trans (headed_applyAll h)

end Automaton

theorem AutomatonId.text_ne_of_space (id : AutomatonId) {name : String}
    (space : ' ' ∈ name.toList) : name ≠ id.text := by
  rintro rfl
  exact absurd (List.all_eq_true.mp id.alphanumeric _ space) (by decide)

theorem AutomatonId.text_of_ofString {text : String} {id : AutomatonId}
    (read : ofString text = .ok id) : id.text = text := by
  unfold ofString at read
  split at read
  · cases read
  · split at read <;> cases read
    rfl

theorem AutomatonId.ofString_text (id : AutomatonId) : AutomatonId.ofString id.text = .ok id := by
  rw [AutomatonId.ofString, dif_neg id.nonempty, dif_pos id.alphanumeric]

/-- Results without their error can be compared. -/
theorem eq_ok_of_toOption {ε α : Type} {r : Except ε α} {x : α} (h : r.toOption = some x) :
    r = .ok x := by
  cases r with
  | error e => cases h
  | ok y => exact congrArg Except.ok (Option.some.inj h)

/-- A block that declares a trace. -/
structure DeclaresTrace (file : Nat) (block : Located Block) (t : TraceInput) : Prop where
  number : Decimal.word64? block.value.id.value = some t.id
  body : Automaton.ofBlock file ("trace " ++ Decimal.render t.id) block = .ok t.automaton

/-- A block that declares a constraint. -/
structure DeclaresConstraint (file : Nat) (block : Located Block) (c : Constraint) : Prop where
  id : block.value.id.value = c.id.text
  body : Automaton.ofBlock file c.id.text block = .ok c.automaton

def isTraceBlock (id : Nat) (block : Located Block) : Bool :=
  Decimal.word64? block.value.id.value = some id && block.value.kind = .trace

def isConstraintBlock (id : String) (block : Located Block) : Bool :=
  block.value.id.value = id && block.value.kind = .constraint

namespace Document

/-- The declarations of a document stand in the order of their blocks. -/
structure DeclaredBy (d : Document) (file : Nat) (blocks : List (Located Block)) : Prop where
  traces : List.Forall₂ (DeclaresTrace file)
    (blocks.filter fun block => block.value.kind = .trace) d.traces
  constraints : List.Forall₂ (DeclaresConstraint file)
    (blocks.filter fun block => block.value.kind = .constraint) d.constraints

variable {d d' : Document} {file : Nat} {block : Located Block} {blocks done : List (Located Block)}

theorem declaredBy_empty : empty.DeclaredBy file [] := ⟨.nil, .nil⟩

/-- What a block that can be added adds. -/
theorem addBlock_eq_ok_iff : d.addBlock file block = .ok d' ↔
    (block.value.kind = .trace ∧ ∃ t, DeclaresTrace file block t ∧
      t.id ∉ d.traces.map TraceInput.id ∧ d' = { d with traces := d.traces ++ [t] }) ∨
    (block.value.kind = .constraint ∧ ∃ c, DeclaresConstraint file block c ∧
      d' = { d with constraints := d.constraints ++ [c] }) := by
  unfold Document.addBlock
  cases kind : block.value.kind with
  | trace =>
    simp only [addTrace, true_and, reduceCtorEq, false_and, or_false]
    constructor
    · intro h
      split at h
      next => cases h
      next id number =>
        split at h
        next => cases h
        next a body =>
          split at h
          next => cases h
          next fresh =>
            cases h
            refine ⟨⟨id, a⟩, ⟨number, body⟩, ?_, rfl⟩
            simpa using fresh
    · rintro ⟨t, ⟨number, body⟩, fresh, rfl⟩
      have unused : (d.traces.any fun earlier => earlier.id == t.id) = false := by
        simpa using fresh
      simp only [number, body, unused, Bool.false_eq_true, if_false]
  | constraint =>
    simp only [addConstraint, true_and, reduceCtorEq, false_and, false_or]
    constructor
    · intro h
      split at h
      next => cases h
      next id read =>
        split at h
        next => cases h
        next a body =>
          cases h
          exact ⟨⟨id, a⟩, ⟨(AutomatonId.text_of_ofString read).symm, body⟩, rfl⟩
    · rintro ⟨c, ⟨id, body⟩, rfl⟩
      simp only [id, AutomatonId.ofString_text, body]

theorem DeclaredBy.addBlock (declared : d.DeclaredBy file done)
    (h : d.addBlock file block = .ok d') : d'.DeclaredBy file (done ++ [block]) := by
  rcases addBlock_eq_ok_iff.mp h with ⟨kind, t, declares, _, rfl⟩ | ⟨kind, c, declares, rfl⟩
  · have one : List.Forall₂ (DeclaresTrace file) [block] [t] := .cons declares .nil
    exact ⟨by simpa [kind] using List.rel_append declared.traces one,
      by simpa [kind] using declared.constraints⟩
  · have one : List.Forall₂ (DeclaresConstraint file) [block] [c] := .cons declares .nil
    exact ⟨by simpa [kind] using declared.traces,
      by simpa [kind] using List.rel_append declared.constraints one⟩

theorem DeclaredBy.addBlocks (declared : d.DeclaredBy file done)
    (h : d.addBlocks file blocks = .ok d') : d'.DeclaredBy file (done ++ blocks) := by
  fun_induction Document.addBlocks file d blocks generalizing done with
  | case1 => cases h; simpa using declared
  | case2 => cases h
  | case3 d block blocks next added ih => simpa using ih (declared.addBlock added) h

theorem addBlocks_of_parse {text : String} (h : parse file text = .ok d) :
    ∃ blocks, Format.readBlocks text = .ok blocks ∧ empty.addBlocks file blocks = .ok d := by
  unfold parse at h
  split at h
  next => cases h
  next blocks read => exact ⟨blocks, read, h⟩

theorem parse_of_readBlocks {text : String} (h : Format.readBlocks text = .ok blocks) :
    parse file text = empty.addBlocks file blocks := by
  unfold parse
  rw [h]

theorem declaredBy_of_parse {text : String} (h : parse file text = .ok d) :
    ∃ blocks, Format.readBlocks text = .ok blocks ∧ d.DeclaredBy file blocks := by
  obtain ⟨blocks, read, added⟩ := addBlocks_of_parse h
  exact ⟨blocks, read, declaredBy_empty.addBlocks added⟩

theorem DeclaredBy.isTraceBlock (declared : d.DeclaredBy file blocks) (id : Nat) :
    List.Forall₂ (DeclaresTrace file) (blocks.filter (isTraceBlock id))
      (d.traces.filter fun t => t.id = id) := by
  have kept := List.rel_filter (R := DeclaresTrace file)
    (p := fun block => Decimal.word64? block.value.id.value = some id)
    (q := fun t => t.id = id) (fun block t declares => by simp [declares.number]) declared.traces
  rw [List.filter_filter] at kept
  exact kept

theorem DeclaredBy.isConstraintBlock (declared : d.DeclaredBy file blocks) (id : String) :
    List.Forall₂ (DeclaresConstraint file) (blocks.filter (isConstraintBlock id))
      (d.constraints.filter fun c => c.id.text = id) := by
  have kept := List.rel_filter (R := DeclaresConstraint file)
    (p := fun block => block.value.id.value = id)
    (q := fun c => c.id.text = id) (fun block c declares => by simp [declares.id])
    declared.constraints
  rw [List.filter_filter] at kept
  exact kept

theorem DeclaredBy.name_of_mem_traces (declared : d.DeclaredBy file blocks) {t : TraceInput}
    (member : t ∈ d.traces) : t.automaton.name = "trace " ++ Decimal.render t.id := by
  obtain ⟨block, _, declares⟩ := exists_mem_of_forall₂ declared.traces member
  exact (Automaton.head_of_ofBlock declares.body).1

theorem DeclaredBy.name_of_mem_constraints (declared : d.DeclaredBy file blocks) {c : Constraint}
    (member : c ∈ d.constraints) : c.automaton.name = c.id.text := by
  obtain ⟨block, _, declares⟩ := exists_mem_of_forall₂ declared.constraints member
  exact (Automaton.head_of_ofBlock declares.body).1

theorem filter_traces (distinct : (d.traces.map TraceInput.id).Nodup) {t : TraceInput}
    (member : t ∈ d.traces) : (d.traces.filter fun t' => t'.id = t.id) = [t] := by
  have same : ∀ t' ∈ d.traces, decide (t'.id = t.id) = decide (t' = t) := by
    intro t' member'
    rw [decide_eq_decide]
    exact ⟨List.inj_on_of_nodup_map distinct member' member, congrArg _⟩
  rw [List.filter_congr same, List.filter_eq, List.count_eq_one_of_mem distinct.of_map member]
  rfl

/-- A trace has a block of its own, and it is found there. -/
theorem DeclaredBy.spanOf_trace (declared : d.DeclaredBy file blocks)
    (distinct : (d.traces.map TraceInput.id).Nodup) {t : TraceInput} (member : t ∈ d.traces) :
    ∃ block, blocks.filter (AlignPlan.isTraceBlock t.id) = [block] ∧
      DeclaresTrace file block t ∧
      d.spanOf t.automaton.name = some ⟨block.start, block.stop, file⟩ := by
  have own := declared.isTraceBlock t.id
  rw [filter_traces distinct member] at own
  obtain ⟨block, _, declares, rest, only⟩ := List.forall₂_cons_right_iff.mp own
  cases List.forall₂_nil_right_iff.mp rest
  have named : ∀ t' ∈ d.traces,
      (t'.automaton.name == t.automaton.name) = decide (t'.id = t.id) := by
    intro t' member'
    rw [declared.name_of_mem_traces member', declared.name_of_mem_traces member]
    have same : "trace " ++ Decimal.render t'.id = "trace " ++ Decimal.render t.id ↔
        t'.id = t.id := (String.append_right_inj _).trans ⟨Decimal.render_injective, congrArg _⟩
    exact (beq_eq_decide _ _).trans (decide_eq_decide.mpr same)
  refine ⟨block, only, declares, ?_⟩
  have first : (d.traces.map TraceInput.automaton).find?
      (fun a => a.name == t.automaton.name) = some t.automaton := by
    rw [← List.head?_filter, List.filter_map, Function.comp_def, List.filter_congr named,
      filter_traces distinct member]
    rfl
  rw [spanOf, List.find?_append, first]
  exact (Automaton.head_of_ofBlock declares.body).2

/-- The first constraint of an id is found where the first block of the id is. -/
theorem DeclaredBy.spanOf_constraint (declared : d.DeclaredBy file blocks) {c : Constraint}
    (first : (d.constraints.find? fun c' => c'.id.text = c.id.text) = some c) :
    ∃ block, blocks.find? (AlignPlan.isConstraintBlock c.id.text) = some block ∧
      DeclaresConstraint file block c ∧
      d.spanOf c.id.text = some ⟨block.start, block.stop, file⟩ := by
  have own := declared.isConstraintBlock c.id.text
  have others : (d.traces.map TraceInput.automaton).find?
      (fun a => a.name == c.id.text) = none := by
    simp only [List.find?_eq_none, List.forall_mem_map, beq_iff_eq]
    intro t member
    rw [declared.name_of_mem_traces member]
    exact c.id.text_ne_of_space (by simp)
  have named : ∀ c' ∈ d.constraints,
      (c'.automaton.name == c.id.text) = decide (c'.id.text = c.id.text) := by
    intro c' member'
    rw [declared.name_of_mem_constraints member']
    exact beq_eq_decide _ _
  rw [← List.head?_filter] at first
  obtain ⟨more, order⟩ := List.head?_eq_some_iff.mp first
  rw [order] at own
  obtain ⟨block, blocks', declares, _, found⟩ := List.forall₂_cons_right_iff.mp own
  refine ⟨block, by rw [← List.head?_filter, found, List.head?_cons], declares, ?_⟩
  have here : (d.constraints.map Constraint.automaton).find?
      (fun a => a.name == c.id.text) = some c.automaton := by
    rw [← List.head?_filter, List.filter_map, Function.comp_def, List.filter_congr named, order]
    rfl
  rw [spanOf, List.find?_append, others, Option.none_or, here]
  exact (Automaton.head_of_ofBlock declares.body).2

end Document

end AlignPlan
