import AlignPlan.Format.Document
import AlignPlan.Proofs.Format.Declarations
import AlignPlan.Proofs.Format.OwnText
import AlignPlan.Proofs.Format.Soundness

/-! Two files as one. What a block declares does not depend on where it stands, except for its
places, so a file that goes on with another one declares what both declare. The numbers of traces
are all that the second part could have in common with the first. -/
namespace AlignPlan

open Format

section Places

instance {α : Type} [Movable α] : Movable (Option α) where
  move n := Option.map (move n)
  move_add m n x := by
    cases x with
    | none => rfl
    | some x => exact congrArg some (move_add m n x)

instance : Movable Span where
  move n s := ⟨n + s.start, n + s.stop, s.file⟩
  move_add m n s := by simp only [Nat.add_assoc]

instance : Movable Automaton where
  move n a := { a with span := move n a.span, transitionSpans := move n a.transitionSpans }
  move_add m n a := by simp only [move_add]

instance : Movable TraceInput where
  move n t := ⟨t.id, move n t.automaton⟩
  move_add m n t := by rw [move_add]

instance : Movable Constraint where
  move n c := ⟨c.id, move n c.automaton⟩
  move_add m n c := by rw [move_add]

instance : Movable Document where
  move n d := ⟨move n d.traces, move n d.constraints⟩
  move_add m n d := by rw [move_add, move_add]

end Places

theorem recordAt_move {α : Type} [Movable α] (n : Nat) (ys : List (Option α)) (k : Nat) (x : α) :
    recordAt (move n ys) k (move n x) = move n (recordAt ys k x) := by
  fun_induction recordAt ys k x with
  | case1 => rfl
  | case2 k x ih => exact congrArg (none :: ·) ih
  | case3 => rfl
  | case4 y ys k x ih => exact congrArg (move n y :: ·) ih

namespace Automaton

variable {a a' : Automaton} {file : Nat}

theorem resolve_move (n : Nat) {name : Token} {state : Nat} (h : a.resolve name = .ok state) :
    (move n a).resolve (move n name) = .ok state := by
  rw [resolve_eq_ok] at h ⊢
  exact h

theorem foldl_move {f : Automaton → Token → Automaton} (n : Nat)
    (each : ∀ a name, f (move n a) (move n name) = move n (f a name)) (names : List Token)
    (a : Automaton) : (move n names).foldl f (move n a) = move n (names.foldl f a) := by
  induction names generalizing a with
  | nil => rfl
  | cons name names ih => rw [move_cons, List.foldl_cons, each, ih, List.foldl_cons]

theorem declareStates_move (n : Nat) (a : Automaton) (item : Located Item) :
    (move n a).declareStates (move n item) = move n (a.declareStates item) := by
  obtain ⟨value, start, stop⟩ := item
  cases value with
  | states names => exact foldl_move n (fun _ _ => rfl) names a
  | _ => rfl

theorem acceptNamed_move (n : Nat) {names : List Token} (h : a.acceptNamed names = .ok a') :
    (move n a).acceptNamed (move n names) = .ok (move n a') := by
  fun_induction Automaton.acceptNamed a names with
  | case1 => cases h; rfl
  | case2 => cases h
  | case3 a name names state found ih =>
    simp only [move_cons, acceptNamed, resolve_move n found]
    exact ih h

theorem setTransitionSpan_move (n : Nat) (a : Automaton) (transition : Nat) (span : Span) :
    (move n a).setTransitionSpan transition (move n span) =
      move n (a.setTransitionSpan transition span) := by
  have spans := recordAt_move n a.transitionSpans transition span
  exact congrArg (fun spans => { move n a with transitionSpans := spans }) spans

theorem apply_move (n : Nat) {item : Located Item} (h : a.apply file item = .ok a') :
    (move n a).apply file (move n item) = .ok (move n a') := by
  obtain ⟨value, start, stop⟩ := item
  cases value with
  | states names => cases h; rfl
  | alphabet names =>
    cases h
    exact congrArg Except.ok (foldl_move n (fun _ _ => rfl) names a)
  | init name =>
    change (if a.initial.isSome then _ else _) = _ at h
    change (if a.initial.isSome then _ else _) = _
    split at h
    next => cases h
    next fresh =>
      rw [if_neg fresh]
      split at h
      next => cases h
      next state found =>
        cases h
        rw [resolve_move n found]
        rfl
  | accept names => exact acceptNamed_move n h
  | transition source symbol target =>
    simp only [apply] at h
    split at h
    next => cases h
    next => cases h
    next s t sourceFound targetFound =>
      cases h
      change (move n a).apply file ⟨.transition (move n source) (move n symbol) (move n target),
        n + start, n + stop⟩ = _
      simp only [apply, resolve_move n sourceFound, resolve_move n targetFound]
      exact congrArg Except.ok
        (setTransitionSpan_move n (a.addTransition ⟨s, symbol.value, t⟩) _ ⟨start, stop, file⟩)

theorem applyAll_move (n : Nat) {items : List (Located Item)} (h : a.applyAll file items = .ok a') :
    (move n a).applyAll file (move n items) = .ok (move n a') := by
  fun_induction applyAll file a items with
  | case1 => cases h; rfl
  | case2 => cases h
  | case3 a item items b applied ih =>
    simp only [move_cons, applyAll, apply_move n applied]
    exact ih h

/-- A block that stands elsewhere declares the same automaton, in another place. -/
theorem ofBlock_move (n : Nat) {name : String} {block : Located Block}
    (h : ofBlock file name block = .ok a) : ofBlock file name (move n block) = .ok (move n a) := by
  have declared : ∀ (items : List (Located Item)) (b : Automaton),
      (move n items).foldl declareStates (move n b) = move n (items.foldl declareStates b) := by
    intro items
    induction items with
    | nil => exact fun _ => rfl
    | cons item items ih =>
      intro b
      rw [move_cons, List.foldl_cons, declareStates_move, ih, List.foldl_cons]
  have all := applyAll_move n h
  rw [← declared] at all
  exact all

end Automaton

theorem DeclaresTrace.move (n : Nat) {file : Nat} {block : Located Block} {t : TraceInput}
    (h : DeclaresTrace file block t) : DeclaresTrace file (move n block) (Format.move n t) :=
  ⟨h.number, Automaton.ofBlock_move n h.body⟩

theorem DeclaresConstraint.move (n : Nat) {file : Nat} {block : Located Block} {c : Constraint}
    (h : DeclaresConstraint file block c) :
    DeclaresConstraint file (Format.move n block) (Format.move n c) :=
  ⟨h.id, Automaton.ofBlock_move n h.body⟩

namespace Document

/-- What two files declare together. -/
def join (d e : Document) : Document := ⟨d.traces ++ e.traces, d.constraints ++ e.constraints⟩

variable {d e e' : Document} {file : Nat} {block : Located Block} {blocks : List (Located Block)}

theorem prefix_addBlock (h : e.addBlock file block = .ok e') : e.traces <+: e'.traces := by
  rcases addBlock_eq_ok_iff.mp h with ⟨_, t, _, _, rfl⟩ | ⟨_, c, _, rfl⟩
  · exact List.prefix_append _ _
  · exact List.prefix_refl _

theorem prefix_addBlocks (h : e.addBlocks file blocks = .ok e') : e.traces <+: e'.traces := by
  fun_induction Document.addBlocks file e blocks with
  | case1 => cases h; exact List.prefix_refl _
  | case2 => cases h
  | case3 e block blocks next added ih => exact (prefix_addBlock added).trans (ih h)

theorem ids_join (n : Nat) (d e : Document) : (d.join (move n e)).traces.map TraceInput.id =
    d.traces.map TraceInput.id ++ e.traces.map TraceInput.id := by
  have kept : (move n e.traces).map TraceInput.id = e.traces.map TraceInput.id :=
    List.map_map.trans rfl
  exact List.map_append.trans (congrArg _ kept)

theorem addBlock_join (n : Nat) (apart : ∀ t ∈ e'.traces, t.id ∉ d.traces.map TraceInput.id)
    (h : e.addBlock file block = .ok e') :
    (d.join (move n e)).addBlock file (move n block) = .ok (d.join (move n e')) := by
  rw [addBlock_eq_ok_iff] at h ⊢
  rcases h with ⟨kind, t, declares, fresh, rfl⟩ | ⟨kind, c, declares, rfl⟩
  · refine .inl ⟨kind, move n t, declares.move n, ?_, ?_⟩
    · rw [ids_join, List.mem_append, not_or]
      exact ⟨apart t (by simp), fresh⟩
    · change (⟨d.traces ++ move n (e.traces ++ [t]), _⟩ : Document) = _
      rw [move_append, ← List.append_assoc]
      rfl
  · refine .inr ⟨kind, move n c, declares.move n, ?_⟩
    change (⟨_, d.constraints ++ move n (e.constraints ++ [c])⟩ : Document) = _
    rw [move_append, ← List.append_assoc]
    rfl

/-- Blocks that make a document of their own add it to any document that has none of its traces. -/
theorem addBlocks_join (n : Nat) (apart : ∀ t ∈ e'.traces, t.id ∉ d.traces.map TraceInput.id)
    (h : e.addBlocks file blocks = .ok e') :
    (d.join (move n e)).addBlocks file (move n blocks) = .ok (d.join (move n e')) := by
  fun_induction Document.addBlocks file e blocks with
  | case1 => cases h; rfl
  | case2 => cases h
  | case3 e block blocks next added ih =>
    have early : ∀ t ∈ next.traces, t.id ∉ d.traces.map TraceInput.id :=
      fun t member => apart t ((prefix_addBlocks h).subset member)
    simp only [move_cons, addBlocks, addBlock_join n early added]
    exact ih h

theorem addBlock_repeated {t : TraceInput} (kind : block.value.kind = .trace)
    (declares : DeclaresTrace file block t) (repeated : t.id ∈ d.traces.map TraceInput.id) :
    d.addBlock file block = .error (.about block (.repeatedTrace t.id)) := by
  have used : (d.traces.any fun earlier => earlier.id == t.id) = true := by
    simpa using repeated
  simp only [addBlock, kind, addTrace, declares.number, declares.body, used, if_true]

/-- The first block of a trace that the document has already is where adding them ends. -/
theorem addBlocks_join_repeated (n : Nat) {t : TraceInput}
    (clear : ∀ s ∈ e.traces, s.id ∉ d.traces.map TraceInput.id)
    (first : e'.traces.find? (fun s => s.id ∈ d.traces.map TraceInput.id) = some t)
    (h : e.addBlocks file blocks = .ok e') :
    ∃ start stop, t.automaton.span = some ⟨start, stop, file⟩ ∧
      (d.join (move n e)).addBlocks file (move n blocks) =
        .error ⟨.repeatedTrace t.id, n + start, n + stop⟩ := by
  fun_induction Document.addBlocks file e blocks with
  | case1 =>
    cases h
    have member := List.mem_of_find?_eq_some first
    have shared := List.find?_some first
    exact absurd (of_decide_eq_true shared) (clear t member)
  | case2 => cases h
  | case3 e block blocks next added ih =>
    by_cases early : ∀ s ∈ next.traces, s.id ∉ d.traces.map TraceInput.id
    · simp only [move_cons, addBlocks, addBlock_join n early added]
      exact ih early h
    · rcases addBlock_eq_ok_iff.mp added with ⟨kind, s, declares, _, rfl⟩ | ⟨_, c, _, rfl⟩
      · have shared : s.id ∈ d.traces.map TraceInput.id := by
          by_contra fresh
          exact early fun r member => (List.mem_append.mp member).elim (clear r)
            fun last => List.mem_singleton.mp last ▸ fresh
        obtain ⟨more, all⟩ := prefix_addBlocks h
        have passed : e.traces.find? (fun s => s.id ∈ d.traces.map TraceInput.id) = none := by
          simpa using clear
        rw [← all, List.append_assoc, List.find?_append, passed, Option.none_or,
          List.singleton_append, List.find?_cons_of_pos (by simpa using shared)] at first
        cases first
        refine ⟨_, _, (Automaton.head_of_ofBlock declares.body).2, ?_⟩
        have listed : t.id ∈ (d.join (move n e)).traces.map TraceInput.id := by
          rw [ids_join]
          exact List.mem_append_left _ shared
        have refused : (d.join (move n e)).addBlock file (move n block) = _ :=
          addBlock_repeated kind (declares.move n) listed
        simp only [move_cons, addBlocks, refused]
        rfl
      · exact absurd clear early

theorem addBlocks_append {more : List (Located Block)} (h : e.addBlocks file blocks = .ok e') :
    e.addBlocks file (blocks ++ more) = e'.addBlocks file more := by
  fun_induction Document.addBlocks file e blocks with
  | case1 => cases h; rfl
  | case2 => cases h
  | case3 e block blocks next added ih =>
    simp only [List.cons_append, addBlocks, added]
    exact ih h

end Document

/-- The blocks of two files that are put together, with a line break between them. -/
theorem Format.readBlocks_join {a b : String} {first second : List (Located Block)}
    (readFirst : readBlocks a = .ok first) (readSecond : readBlocks b = .ok second) :
    readBlocks (a ++ "\n" ++ b) = .ok (first ++ move (a.utf8ByteSize + 1) second) := by
  obtain ⟨afterA, repeatsA, endedA⟩ := readBlocks_eq_ok_iff.mp readFirst
  obtain ⟨afterB, repeatsB, endedB⟩ := readBlocks_eq_ok_iff.mp readSecond
  obtain ⟨textA, itemsA, wholeA, stopA, _, sameA, againA⟩ :=
    Grammar.local_anyBlock.repeats repeatsA
  obtain ⟨textB, itemsB, wholeB, stopB, _, sameB, againB⟩ :=
    Grammar.local_anyBlock.repeats repeatsB
  have lengthA : a.utf8ByteSize = 0 + byteLength textA + byteLength afterA.rest := by
    rw [Nat.zero_add, utf8ByteSize_eq, ← byteLength_append, ← wholeA]
    rfl
  have joined : Grammar.anyBlock.Repeats (Cursor.ofString (a ++ "\n" ++ b)) first
      ⟨0 + byteLength textA, afterA.rest ++ '\n' :: b.toList⟩ := by
    have begun := againA 0 (afterA.rest ++ '\n' :: b.toList) trivial
    rw [show move 0 itemsA = first from sameA.symm, ← List.append_assoc, ← wholeA] at begun
    simpa [Cursor.ofString] using begun
  have passed : (⟨0 + byteLength textA, afterA.rest ++ '\n' :: b.toList⟩ : Cursor).skip =
      (⟨a.utf8ByteSize + 1, b.toList⟩ : Cursor).skip := by
    rw [lengthA]
    exact Cursor.skipFrom_exhausted endedA _ _
  have moved : Grammar.anyBlock.Repeats ⟨a.utf8ByteSize + 1, b.toList⟩
      (move (a.utf8ByteSize + 1) second) ⟨a.utf8ByteSize + 1 + byteLength textB, afterB.rest⟩ := by
    have begun := againB (a.utf8ByteSize + 1) afterB.rest trivial
    rw [← wholeB] at begun
    rw [sameB, show (Cursor.ofString b).offset = 0 from rfl, ← move_add]
    exact begun
  obtain ⟨after, others, same⟩ := Phrase.exists_repeats_of_skip passed moved
  refine readBlocks_eq_ok_iff.mpr ⟨after, joined.append others, ?_⟩
  rw [same]
  exact (Cursor.rest_skipFrom _ _ _ _).trans endedB

namespace Document

/-- Two files that are read one by one are read as one with a line break in between. All places in
the second move on behind the first. Only a trace that both declare keeps them from being joined,
and the complaint is about the second declaration of the first such trace. -/
theorem parse_join {file : Nat} {a b : String} {d e : Document} (first : parse file a = .ok d)
    (second : parse file b = .ok e) :
    ((∀ t ∈ e.traces, t.id ∉ d.traces.map TraceInput.id) →
      parse file (a ++ "\n" ++ b) = .ok (d.join (move (a.utf8ByteSize + 1) e))) ∧
    ∀ t, e.traces.find? (fun t => t.id ∈ d.traces.map TraceInput.id) = some t →
      ∃ complaint, parse file (a ++ "\n" ++ b) = .error complaint ∧
        complaint.message = "trace " ++ Decimal.render t.id ++ " is declared more than once" ∧
        move (a.utf8ByteSize + 1) t.automaton.span =
          some ⟨complaint.start, complaint.stop, file⟩ := by
  obtain ⟨before, readBefore, addedBefore⟩ := addBlocks_of_parse first
  obtain ⟨after, readAfter, addedAfter⟩ := addBlocks_of_parse second
  let n := a.utf8ByteSize + 1
  have begun : parse file (a ++ "\n" ++ b) =
      (d.join (move n empty)).addBlocks file (move n after) := by
    rw [parse_of_readBlocks (readBlocks_join readBefore readAfter),
      addBlocks_append addedBefore]
    congr 1
    simp [join, empty, move, Movable.move]
  rw [begun]
  constructor
  · intro apart
    exact addBlocks_join n apart addedAfter
  · intro t shared
    obtain ⟨start, stop, placed, refused⟩ :=
      addBlocks_join_repeated n (List.forall_mem_nil _) shared addedAfter
    refine ⟨_, refused, rfl, ?_⟩
    rw [placed]
    rfl

end Document

namespace Sample

/-- The last line is a comment without an end. -/
def openEnded : String := "trace 1 \x7bstates p; p--x->p;\x7d // née"

def openEndedDocument : Document where
  traces := [⟨1, ⟨"trace 1", ["p"], ["x"], none, [], [⟨0, "x", 0⟩], some ⟨0, 28, 0⟩,
    [some ⟨19, 27, 0⟩]⟩⟩]
  constraints := []

/-- Two blocks without a space in between. -/
def adjoining : String := "constraint k9\x7b\x7dtrace 2\x7b init q;\nstates q;\x7d"

def adjoiningDocument : Document where
  traces := [⟨2, ⟨"trace 2", ["q"], [], some 0, [], [], some ⟨15, 42, 0⟩, []⟩⟩]
  constraints := [⟨⟨"k9", by decide, by decide⟩,
    ⟨"k9", [], [], none, [], [], some ⟨0, 15, 0⟩, []⟩⟩]

end Sample

namespace Document

/-- The second file moves on by 37 bytes. No file can be joined to itself. -/
theorem parse_join_sample :
    parse 0 (Sample.openEnded ++ "\n" ++ Sample.adjoining) =
      .ok ⟨Sample.openEndedDocument.traces ++ [⟨2, ⟨"trace 2", ["q"], [], some 0, [], [],
        some ⟨52, 79, 0⟩, []⟩⟩], [⟨⟨"k9", by decide, by decide⟩,
        ⟨"k9", [], [], none, [], [], some ⟨37, 52, 0⟩, []⟩⟩]⟩ ∧
    ∃ complaint, parse 0 (Sample.openEnded ++ "\n" ++ Sample.openEnded) = .error complaint ∧
      complaint.message = "trace 1 is declared more than once" ∧
      complaint.start = 37 ∧ complaint.stop = 65 := by
  have first : parse 0 Sample.openEnded = .ok Sample.openEndedDocument :=
    eq_ok_of_toOption (by decide +kernel)
  have second : parse 0 Sample.adjoining = .ok Sample.adjoiningDocument :=
    eq_ok_of_toOption (by decide +kernel)
  constructor
  · rw [(parse_join first second).1 (by decide)]
    rfl
  · obtain ⟨complaint, refused, message, place⟩ := (parse_join first first).2 _ rfl
    have same : some (⟨37, 65, 0⟩ : Span) = some ⟨complaint.start, complaint.stop, 0⟩ := place
    injection same with same
    injection same with start stop
    exact ⟨complaint, refused, message, start.symm, stop.symm⟩

end Document

end AlignPlan
