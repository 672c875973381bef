import AlignPlan.Proofs.Format.Joining
import AlignPlan.Proofs.Format.Meaning

/-! A file block by block. Every block makes one declaration, whatever the others are; a file is
accepted when all of its blocks are and no trace is declared twice. A document keeps traces and
constraints apart, while declarations stand in the order of the file. -/
namespace AlignPlan

open Format

namespace Declaration

def kind : Declaration → BlockKind
  | .trace _ => .trace
  | .constraint _ => .constraint

/-- What the automaton is reported by. -/
def name : Declaration → String
  | .trace t => "trace " ++ Decimal.render t.id
  | .constraint c => c.id.text

/-- Whether the id of a block is that of the declaration. -/
def IsNamed (id : String) : Declaration → Prop
  | .trace t => Decimal.word64? id = some t.id
  | .constraint c => id = c.id.text

def withAutomaton (a : Automaton) : Declaration → Declaration
  | .trace t => .trace ⟨t.id, a⟩
  | .constraint c => .constraint ⟨c.id, a⟩

section WithAutomaton

variable (a b : Automaton) (e : Declaration)

@[simp] theorem automaton_withAutomaton : (e.withAutomaton a).automaton = a := by cases e <;> rfl

@[simp] theorem kind_withAutomaton : (e.withAutomaton a).kind = e.kind := by cases e <;> rfl

@[simp] theorem name_withAutomaton : (e.withAutomaton a).name = e.name := by cases e <;> rfl

@[simp] theorem isNamed_withAutomaton (id : String) :
    (e.withAutomaton a).IsNamed id ↔ e.IsNamed id := by cases e <;> rfl

@[simp] theorem withAutomaton_withAutomaton :
    (e.withAutomaton a).withAutomaton b = e.withAutomaton b := by cases e <;> rfl

@[simp] theorem withAutomaton_automaton : e.withAutomaton e.automaton = e := by cases e <;> rfl

end WithAutomaton

instance : Movable Declaration where
  move n e := e.withAutomaton (move n e.automaton)
  move_add m n e := by simp [move_add]

@[simp] theorem move_withAutomaton (n : Nat) (a : Automaton) (e : Declaration) :
    move n (e.withAutomaton a) = e.withAutomaton (move n a) := by cases e <;> rfl

/-- A declaration without places in a file. -/
def unplaced (e : Declaration) : Declaration := e.withAutomaton e.automaton.unplaced

theorem trace?_withAutomaton (a : Automaton) (e : Declaration) :
    (e.withAutomaton a).trace?.map TraceInput.id = e.trace?.map TraceInput.id := by
  cases e <;> rfl

end Declaration

/-- The declaration that a block makes. -/
structure Declares (file : Nat) (block : Located Block) (e : Declaration) : Prop where
  kind : block.value.kind = e.kind
  id : e.IsNamed block.value.id.value
  body : Automaton.ofBlock file e.name block = .ok e.automaton

theorem declares_trace_iff {file : Nat} {block : Located Block} {t : TraceInput} :
    Declares file block (.trace t) ↔ block.value.kind = .trace ∧ DeclaresTrace file block t :=
  ⟨fun ⟨kind, id, body⟩ => ⟨kind, id, body⟩, fun ⟨kind, id, body⟩ => ⟨kind, id, body⟩⟩

theorem declares_constraint_iff {file : Nat} {block : Located Block} {c : Constraint} :
    Declares file block (.constraint c) ↔
      block.value.kind = .constraint ∧ DeclaresConstraint file block c :=
  ⟨fun ⟨kind, id, body⟩ => ⟨kind, id, body⟩, fun ⟨kind, id, body⟩ => ⟨kind, id, body⟩⟩

/-- The place of a declaration is that of its block. -/
theorem Declares.span_eq {file : Nat} {block : Located Block} {e : Declaration}
    (h : Declares file block e) : e.automaton.span = some ⟨block.start, block.stop, file⟩ :=
  (Automaton.head_of_ofBlock h.body).2

/-- A block of the same id that makes another automaton declares that instead. -/
theorem Declares.withAutomaton {file : Nat} {block block' : Located Block} {e : Declaration}
    {a : Automaton} (h : Declares file block e) (kind : block'.value.kind = block.value.kind)
    (id : block'.value.id.value = block.value.id.value)
    (body : Automaton.ofBlock file e.name block' = .ok a) :
    Declares file block' (e.withAutomaton a) where
  kind := by rw [kind, h.kind, Declaration.kind_withAutomaton]
  id := by rw [id, Declaration.isNamed_withAutomaton]; exact h.id
  body := by simpa using body

namespace Document

/-- The numbers of the traces among some declarations. -/
def traceIds (declarations : List Declaration) : List Nat :=
  (ofDeclarations declarations).traces.map TraceInput.id

variable {d d' : Document} {file : Nat} {block : Located Block} {blocks : List (Located Block)}
  {e : Declaration} {declarations more : List Declaration}

theorem ofDeclarations_append : ofDeclarations (declarations ++ more) =
    (ofDeclarations declarations).join (ofDeclarations more) := by
  simp [ofDeclarations, join]

theorem join_assoc (c d e : Document) : (c.join d).join e = c.join (d.join e) := by
  simp [join]

theorem join_empty (d : Document) : d.join empty = d := by
  simp [join, empty]

theorem addBlock_eq_ok_iff_declares : d.addBlock file block = .ok d' ↔
    ∃ e, Declares file block e ∧ (∀ id ∈ traceIds [e], id ∉ d.traces.map TraceInput.id) ∧
      d' = d.join (ofDeclarations [e]) := by
  rw [addBlock_eq_ok_iff]
  constructor
  · rintro (⟨kind, t, declares, fresh, rfl⟩ | ⟨kind, c, declares, rfl⟩)
    · refine ⟨.trace t, declares_trace_iff.mpr ⟨kind, declares⟩, ?_, ?_⟩
      · exact List.forall_mem_singleton.mpr fresh
      · simp [join, ofDeclarations, Declaration.trace?, Declaration.constraint?]
    · refine ⟨.constraint c, declares_constraint_iff.mpr ⟨kind, declares⟩, List.forall_mem_nil _, ?_⟩
      simp [join, ofDeclarations, Declaration.trace?, Declaration.constraint?]
  · rintro ⟨e, declares, fresh, rfl⟩
    cases e with
    | trace t =>
      obtain ⟨kind, declares⟩ := declares_trace_iff.mp declares
      refine .inl ⟨kind, t, declares, fresh t.id List.mem_cons_self, ?_⟩
      simp [join, ofDeclarations, Declaration.trace?, Declaration.constraint?]
    | constraint c =>
      obtain ⟨kind, declares⟩ := declares_constraint_iff.mp declares
      refine .inr ⟨kind, c, declares, ?_⟩
      simp [join, ofDeclarations, Declaration.trace?, Declaration.constraint?]

theorem traceIds_eq (declarations : List Declaration) :
    traceIds declarations = declarations.filterMap fun e => e.trace?.map TraceInput.id :=
  List.map_filterMap

/-- Traces keep their numbers whatever their places. -/
theorem traceIds_eq_of_unplaced (same : more.map Declaration.unplaced =
    declarations.map Declaration.unplaced) : traceIds more = traceIds declarations := by
  have bare (all : List Declaration) : traceIds (all.map Declaration.unplaced) = traceIds all := by
    rw [traceIds_eq, traceIds_eq, List.filterMap_map]
    exact List.filterMap_congr fun e _ => Declaration.trace?_withAutomaton _ e
  rw [← bare, same, bare]

theorem traceIds_append :
    traceIds (declarations ++ more) = traceIds declarations ++ traceIds more := by
  simp [traceIds_eq]

theorem traceIds_withAutomaton (a : Automaton) (e : Declaration) :
    traceIds [e.withAutomaton a] = traceIds [e] := by
  cases e <;> rfl

theorem traceIds_cons : traceIds (e :: declarations) = traceIds [e] ++ traceIds declarations := by
  cases e <;> rfl

theorem traceIds_join : (d.join (ofDeclarations declarations)).traces.map TraceInput.id =
    d.traces.map TraceInput.id ++ traceIds declarations := by
  simp [join, traceIds]

theorem nodup_append_traceIds {ids : List Nat} (distinct : ids.Nodup) (e : Declaration) :
    (ids ++ traceIds [e]).Nodup ↔ ∀ id ∈ traceIds [e], id ∉ ids := by
  have one : (traceIds [e]).Nodup := by
    cases e with
    | trace t => exact List.nodup_singleton t.id
    | constraint c => exact List.nodup_nil
  rw [List.nodup_append']
  exact ⟨fun h id member listed => h.2.2 listed member,
    fun h => ⟨distinct, one, fun id listed member => h id member listed⟩⟩

/-- Blocks add what they declare, in order. No trace may have been declared before. -/
theorem addBlocks_eq_ok_iff (distinct : (d.traces.map TraceInput.id).Nodup) :
    d.addBlocks file blocks = .ok d' ↔
      ∃ declarations, List.Forall₂ (Declares file) blocks declarations ∧
        (d.traces.map TraceInput.id ++ traceIds declarations).Nodup ∧
        d' = d.join (ofDeclarations declarations) := by
  induction blocks generalizing d with
  | nil =>
    constructor
    · intro h
      cases h
      exact ⟨[], .nil, by simpa [traceIds, ofDeclarations] using distinct, (join_empty _).symm⟩
    · rintro ⟨declarations, declares, _, rfl⟩
      cases declares
      exact congrArg Except.ok (join_empty d).symm
  | cons block blocks ih =>
    constructor
    · intro h
      rw [addBlocks] at h
      split at h
      next => cases h
      next next added =>
        obtain ⟨e, declares, fresh, rfl⟩ := addBlock_eq_ok_iff_declares.mp added
        have apart := (nodup_append_traceIds distinct e).mpr fresh
        rw [← traceIds_join] at apart
        obtain ⟨declarations, others, all, rfl⟩ := (ih apart).mp h
        refine ⟨e :: declarations, .cons declares others, ?_, ?_⟩
        · rwa [traceIds_join, List.append_assoc, ← traceIds_cons] at all
        · rw [join_assoc, ← ofDeclarations_append]
          rfl
    · rintro ⟨_, declares, all, rfl⟩
      cases declares with
      | @cons _ e _ declarations first others =>
        rw [traceIds_cons, ← List.append_assoc] at all
        have apart := all.of_append_left
        have fresh := (nodup_append_traceIds distinct e).mp apart
        have added := addBlock_eq_ok_iff_declares.mpr ⟨e, first, fresh, rfl⟩
        rw [← traceIds_join] at apart all
        simp only [addBlocks, added]
        refine (ih apart).mpr ⟨declarations, others, all, ?_⟩
        rw [join_assoc, ← ofDeclarations_append]
        rfl

/-- What a file declares is what its blocks declare, one by one. -/
theorem parse_eq_ok_iff {text : String} : parse file text = .ok d ↔
    ∃ blocks declarations, readBlocks text = .ok blocks ∧
      List.Forall₂ (Declares file) blocks declarations ∧ (traceIds declarations).Nodup ∧
      d = ofDeclarations declarations := by
  have start : (empty.traces.map TraceInput.id).Nodup := List.nodup_nil
  constructor
  · intro h
    obtain ⟨blocks, read, added⟩ := addBlocks_of_parse h
    obtain ⟨declarations, declares, apart, rfl⟩ := (addBlocks_eq_ok_iff start).mp added
    exact ⟨blocks, declarations, read, declares, apart, rfl⟩
  · rintro ⟨blocks, declarations, read, declares, apart, rfl⟩
    rw [parse_of_readBlocks read]
    exact (addBlocks_eq_ok_iff start).mpr ⟨declarations, declares, apart, rfl⟩

end Document

end AlignPlan
