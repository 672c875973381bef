import AlignPlan.Proofs.Format.Excerpts

/-! Messages describe a transition as a file declares it. What they print is an item of a block,
wherever it is put between other items, and adds this transition. -/
namespace AlignPlan

open Format

namespace Format

namespace Phrase

variable {α β : Type} {Good : α → Prop} {text rest : List Char}

/-- Wherever the text is followed by `rest`, it is read as this phrase, and the result is good. -/
def Reads (p : Phrase α) (text rest : List Char) (Good : α → Prop) : Prop :=
  ∀ c, c.rest = text ++ rest → ∃ x c', p.read c = some (x, c') ∧ c'.rest = rest ∧ Good x

theorem Reads.mono {p : Phrase α} {Better : α → Prop} (h : p.Reads text rest Better)
    (weaken : ∀ x, Better x → Good x) : p.Reads text rest Good := by
  intro c whole
  obtain ⟨x, c', found, remains, good⟩ := h c whole
  exact ⟨x, c', found, remains, weaken x good⟩

theorem Reads.named {p : Phrase α} (h : p.Reads text rest Good) (symbol : Symbol) :
    (named symbol p).Reads text rest Good := h

theorem Reads.map {p : Phrase α} {f : α → β} {Image : β → Prop}
    (h : p.Reads text rest fun x => Image (f x)) : (p.map f).Reads text rest Image := by
  intro c whole
  obtain ⟨x, c', found, remains, good⟩ := h c whole
  exact ⟨f x, c', read_map_iff.mpr ⟨x, found, rfl⟩, remains, good⟩

theorem Reads.located {p : Phrase α} (h : p.Reads text rest Good) :
    p.located.Reads text rest fun x => Good x.value := by
  intro c whole
  obtain ⟨x, c', found, remains, good⟩ := h c whole
  exact ⟨⟨x, c.offset, c'.offset⟩, c', read_located_iff.mpr ⟨found, rfl, rfl⟩, remains, good⟩

theorem Reads.orElse {p q : Phrase α} (apart : p.Apart q) (h : q.Reads text rest Good) :
    (p.orElse q).Reads text rest Good := by
  intro c whole
  obtain ⟨x, c', found, remains, good⟩ := h c whole
  have refused := (apart c).resolve_right (by simp [found])
  exact ⟨x, c', Option.or_eq_some_iff.mpr (.inr ⟨refused, found⟩), remains, good⟩

theorem Reads.andThen {p : Phrase α} {q : Phrase β} {Next : β → Prop} {gap later : List Char}
    (hp : p.Reads text (gap ++ (later ++ rest)) Good) (isGap : IsGap gap) (solid : Solid later)
    (hq : q.Reads later rest Next) :
    (p.andThen q).Reads (text ++ (gap ++ later)) rest fun xy => Good xy.1 ∧ Next xy.2 := by
  intro c whole
  obtain ⟨x, between, first, remains, good⟩ := hp c (by simpa using whole)
  have next : between.skip.rest = later ++ rest := by
    have skipped := Cursor.skip_gap isGap solid between.offset rest
    rw [← remains] at skipped
    exact congrArg Cursor.rest skipped
  obtain ⟨y, c', second, ended, fits⟩ := hq between.skip next
  exact ⟨(x, y), c', readThen_eq_some.mpr ⟨between, first, second⟩, ended, good, fits⟩

theorem Reads.before {p : Phrase Unit} {q : Phrase β} {Any : Unit → Prop} {Next : β → Prop}
    {gap later : List Char} (hp : p.Reads text (gap ++ (later ++ rest)) Any) (isGap : IsGap gap)
    (solid : Solid later) (hq : q.Reads later rest Next) :
    (p.before q).Reads (text ++ (gap ++ later)) rest Next :=
  ((hp.andThen isGap solid hq).mono fun _ both => both.2).map

theorem Reads.closedBy {p : Phrase α} {q : Phrase Unit} {Any : Unit → Prop}
    {gap later : List Char} (hp : p.Reads text (gap ++ (later ++ rest)) Good) (isGap : IsGap gap)
    (solid : Solid later) (hq : q.Reads later rest Any) :
    (p.closedBy q).Reads (text ++ (gap ++ later)) rest Good :=
  ((hp.andThen isGap solid hq).mono fun _ both => both.1).map

section Insertion

variable [Movable α] {p : Phrase α} {q : Phrase Unit} {xs ys : List α} {c last stop : Cursor}

/-- One more repetition may be put in between any two, with gaps around it. -/
theorem Local.exists_insert (hp : p.Local .nothing) (hq : q.Local .nothing)
    (repeats : p.Repeats c (xs ++ ys) last) (closed : q.read last.skip = some ((), stop)) :
    ∃ front mid zs, p.Repeats mid ys last ∧ c.rest = front ++ mid.skip.rest ∧
      mid.skip.offset = c.offset + byteLength front ∧ ys = move mid.skip.offset zs ∧
      ∀ lead own trail x next, IsGap lead → Solid own → IsGap trail →
        p.read ⟨mid.skip.offset + byteLength lead, own ++ (trail ++ mid.skip.rest)⟩ =
          some (x, next) →
        next.rest = trail ++ mid.skip.rest →
        ∃ n after stop', p.Repeats
            ⟨c.offset, front ++ (lead ++ (own ++ (trail ++ mid.skip.rest)))⟩
            (xs ++ x :: move n zs) after ∧
          q.read after.skip = some ((), stop') ∧ stop'.rest = stop.rest := by
  obtain ⟨mid, first, second⟩ := exists_repeats_append repeats
  have more : mid.skip.rest ≠ [] := by
    cases second with
    | done => exact hq.rest_ne_nil closed
    | more next _ => exact hp.rest_ne_nil next
  obtain ⟨gap, isGap, gapRest, gapOffset⟩ := Cursor.exists_gap more
  obtain ⟨front, ws, whole, offset, _, rfl, again⟩ := hp.repeats first
  obtain ⟨last', second', same⟩ := exists_repeats_of_skip mid.skip_skip second
  obtain ⟨back, zs, rest, _, _, moved, onward⟩ := hp.repeats second'
  rw [← same] at closed
  obtain ⟨tail, _, wholeTail, _, _, resumed⟩ := hq.resumes closed
  refine ⟨front ++ gap, mid, zs, second, ?_, ?_, moved, ?_⟩
  · rw [whole, gapRest, List.append_assoc]
  · rw [gapOffset, offset, byteLength_append, Nat.add_assoc]
  · intro lead own trail x next isLead solid isTrail found remains
    let n := next.offset + byteLength trail
    have others := onward n last'.rest trivial
    rw [← rest] at others
    have passed : next.skip = (⟨n, mid.skip.rest⟩ : Cursor).skip := by
      have skipped := isTrail.skip_eq next.offset mid.skip.rest
      rwa [← remains] at skipped
    obtain ⟨after, others, skipped⟩ := exists_repeats_of_skip passed others
    have closed' := resumed.read (n + byteLength back) stop.rest trivial
    rw [← wholeTail, ← skipped] at closed'
    refine ⟨n, after, _, ?_, closed', rfl⟩
    have start := again c.offset (gap ++ (lead ++ (own ++ (trail ++ mid.skip.rest)))) trivial
    rw [← offset] at start
    rw [gapOffset, ← Cursor.skip_gap isLead solid, ← isGap.skip_eq] at found
    rw [List.append_assoc]
    exact start.append (.more found others)

end Insertion

end Phrase

namespace Grammar

open Phrase

variable {rest : List Char}

theorem literal_reads (text : String) : (literal text).Reads text.toList rest fun _ => True := by
  intro c whole
  have dropped := Cursor.drop?_append_eq c.offset text.toList rest
  rw [← whole] at dropped
  exact ⟨(), _, Option.map_eq_some_iff.mpr ⟨_, dropped, rfl⟩, rfl, trivial⟩

theorem name_reads {text : String} (writable : Name.Writable text)
    (ends : ∀ c after, rest = c :: after → continuesName c after = false)
    (dashed : text.toList.getLast? = some '-' → ∀ c ∈ rest.head?, c ≠ '-' ∧ c ≠ '>') :
    name.Reads text.toList rest fun token => token.value = text := by
  intro c whole
  have nonempty : text.toList ≠ [] := by
    intro empty
    exact (Name.defect?_eq_none.mp writable.1).1 (String.toList_eq_nil_iff.mp empty)
  refine ⟨⟨text, c.offset, c.offset + byteLength text.toList⟩,
    ⟨c.offset + byteLength text.toList, rest⟩, ?_, rfl, rfl⟩
  refine readWord_eq_some_iff.mpr ⟨text.toList, nonempty, whole, ?_, ?_, rfl⟩
  · rw [whole, splitWhile_name writable ends dashed]
  · rw [String.ofList_toList]

theorem isGap_nil : IsGap [] := isGap_gapText []

theorem isGap_space : IsGap [' '] := isGap_gapText [.space]

theorem solid_name {text : String} (writable : Name.Writable text) : Solid text.toList :=
  isSolid_of_legible writable.1

/-- A transition as messages spell it. -/
def spelledTransition (source symbol target : String) : String :=
  source ++ " --" ++ symbol ++ "-> " ++ target ++ ";"

theorem solid_spelledTransition {source symbol target : String} (writable : Name.Writable source) :
    Solid (spelledTransition source symbol target).toList := by
  simp only [spelledTransition, String.toList_append, List.append_assoc]
  exact (solid_name writable).append _

/-- It does not matter if the source is a word of the grammar or begins with one. -/
theorem item_reads {source symbol target : String} (first : Name.Writable source)
    (second : Name.Writable symbol) (undashed : symbol.toList.getLast? ≠ some '-')
    (third : Name.Writable target) :
    item.Reads (spelledTransition source symbol target).toList rest fun item =>
      item.value.clause = .transition source symbol target := by
  have dashes : Solid "--".toList := rfl
  have tip : Solid "->".toList := rfl
  have closed : (name.closedBy (literal ";")).Reads (target.toList ++ ([] ++ ";".toList)) rest
      fun token => token.value = target :=
    Reads.closedBy (name_reads third (by rintro c after same; cases same; rfl)
      (fun _ c next => by cases next; decide)) isGap_nil rfl (literal_reads ";")
  have arrow := Reads.before (literal_reads "->") isGap_space ((solid_name third).append _) closed
  have middle := Reads.andThen (name_reads second (by rintro c after same; cases same; rfl)
    (fun dash => absurd dash undashed)) isGap_nil (tip.append _) arrow
  have later := Reads.before (literal_reads "--") isGap_nil ((solid_name second).append _) middle
  have whole := Reads.andThen (name_reads first (by rintro c after same; cases same; rfl)
    (fun _ c next => by cases next; decide)) isGap_space (dashes.append _) later
  have spelled : (spelledTransition source symbol target).toList = source.toList ++ ([' '] ++
      ("--".toList ++ ([] ++ (symbol.toList ++ ([] ++ ("->".toList ++ ([' '] ++ (target.toList ++
        ([] ++ ";".toList))))))))) := by
    simp [spelledTransition]
  have read : transition.Reads (spelledTransition source symbol target).toList rest fun item =>
      item.clause = .transition source symbol target := by
    rw [spelled]
    apply Reads.named
    apply Reads.map
    apply whole.mono
    rintro ⟨s, y, t⟩ ⟨rfl, rfl, rfl⟩
    rfl
  exact (Reads.orElse states_apart (Reads.orElse alphabet_apart (Reads.orElse init_apart
    (Reads.orElse accept_apart read)))).located

/-- The end of what has been read is known from its length. -/
theorem offset_of_bounded {α : Type} [Placed α] {p : Phrase α} (bounded : p.Bounded)
    {c c' : Cursor} {x : α} {text : List Char} (found : p.read c = some (x, c'))
    (whole : c.rest = text ++ c'.rest) : c'.offset = c.offset + byteLength text := by
  obtain ⟨own, rest, offset⟩ := (bounded.read c x c' found).1
  rwa [List.append_cancel_right (rest.symm.trans whole)] at offset

end Grammar

theorem clausesOf_append (xs ys : List (Located Item)) :
    clausesOf (xs ++ ys) = clausesOf xs ++ clausesOf ys := List.map_append

/-- A text with a piece put in at a byte offset. -/
def insertedAt (offset : Nat) (piece : List Char) (text : String) : String :=
  String.ofList (textBefore offset text.toList ++ (piece ++ textFrom offset text.toList))

/-- Where an item can be put into a block so that `n` others come before it: at the next item or
else at the closing bracket. -/
def Located.slot (block : Located Block) (n : Nat) : Nat :=
  match block.value.items[n]? with
  | some item => item.start
  | none => block.stop - 1

theorem slot_eq {block : Located Block} {n : Nat} {start mid last stop : Cursor}
    (found : Grammar.anyBlock.read start = some (block, stop))
    (repeats : Grammar.item.Repeats mid (block.value.items.drop n) last)
    (closed : (Phrase.literal "\x7d").read last.skip = some ((), stop)) :
    block.slot n = mid.skip.offset := by
  rw [Located.slot, ← List.head?_drop]
  cases listed : block.value.items.drop n with
  | nil =>
    rw [listed] at repeats
    cases repeats
    have ended := Grammar.offset_of_bounded (Phrase.bounded_literal _) closed
      (Grammar.rest_of_literal closed)
    change block.stop - 1 = _
    rw [(Grammar.locates_anyBlock _ _ _ found).2, ended]
    exact Nat.add_sub_cancel _ 1
  | cons item items =>
    rw [listed] at repeats
    cases repeats with
    | more first _ => exact (Phrase.locates_located _ _ _ _ first).1

/-- A text that is read as an item can be put into a block as one more item, with gaps around it. -/
theorem readBlocks_insertedAt {text : String} {earlier later : List (Located Block)}
    {block : Located Block} {lead own trail : List Char} {clause : Clause} (n : Nat)
    (read : readBlocks text = .ok (earlier ++ block :: later)) (isLead : IsGap lead)
    (solid : Solid own) (isTrail : IsGap trail)
    (reads : ∀ rest, Grammar.item.Reads own rest fun item => item.value.clause = clause) :
    ∃ block' later' item others,
      readBlocks (insertedAt (block.slot n) (lead ++ (own ++ trail)) text) =
        .ok (earlier ++ block' :: later') ∧
      block'.value.kind = block.value.kind ∧ block'.value.id.value = block.value.id.value ∧
      block'.value.items = block.value.items.take n ++ item :: others ∧
      item.value.clause = clause ∧ item.start = block.slot n + byteLength lead ∧
      item.stop = item.start + byteLength own ∧
      clausesOf others = clausesOf (block.value.items.drop n) ∧
      List.Forall₂ Restates later' later := by
  obtain ⟨before, start, inside, last, stop, whole, begun, found, repeats, closed, replace⟩ :=
    exists_body_in_file read
  rw [← List.take_append_drop n block.value.items] at repeats
  obtain ⟨front, mid, zs, others, frontRest, offset, moved, insert⟩ :=
    Grammar.local_item.exists_insert Grammar.local_closeBracket repeats closed
  have slot : block.slot n = mid.skip.offset := slot_eq found others closed
  let rest := trail ++ mid.skip.rest
  obtain ⟨item, next, readItem, remains, spells⟩ :=
    reads rest ⟨mid.skip.offset + byteLength lead, own ++ rest⟩ rfl
  obtain ⟨itemStart, itemStop⟩ := Phrase.locates_located _ _ _ _ readItem
  have ended := Grammar.offset_of_bounded Grammar.bounded_item readItem (by rw [remains])
  obtain ⟨m, after, stop', again, closed', same⟩ :=
    insert lead own trail item next isLead solid isTrail readItem remains
  rw [begun] at again
  obtain ⟨block', later', read', kind, id, items, restates⟩ :=
    replace _ _ after stop' again closed' same
  refine ⟨block', later', item, move m zs, ?_, kind, id, items, spells, ?_, ?_, ?_, restates⟩
  · have place : mid.skip.offset = byteLength (before ++ front) := by
      rw [offset, begun, byteLength_append]
    have split : text.toList = before ++ front ++ mid.skip.rest := by
      rw [whole, frontRest, List.append_assoc]
    rw [← read', insertedAt, slot, place, split, textBefore_append, textFrom_append]
    simp only [List.append_assoc]
  · rw [itemStart, slot]
  · rw [itemStop, itemStart, ended]
  · rw [moved, clausesOf_move, clausesOf_move]

end Format

namespace Automaton

/-- The second automaton has one transition more, the `k`-th, whose symbol may be a new one. Places
do not count. -/
structure Gains (a b : Automaton) (k : Nat) (t : Transition) : Prop where
  name : b.name = a.name
  states : b.states = a.states
  initial : b.initial = a.initial
  accepting : b.accepting = a.accepting
  alphabet : ∀ symbol, symbol ∈ b.alphabet ↔ symbol ∈ a.alphabet ∨ symbol = t.symbol
  bound : k ≤ a.transitions.length
  transitions : b.transitions = a.transitions.take k ++ t :: a.transitions.drop k

variable {a : Automaton} {file : Nat}

theorem length_transitionPlaces (file : Nat) (items : List (Located Item)) :
    (transitionPlaces file items).length = ((clausesOf items).flatMap Clause.steps).length := by
  induction items with
  | nil => rfl
  | cons item items ih =>
    have one : (transitionPlaces file [item]).length = item.value.clause.steps.length := by
      cases value : item.value <;>
        simp [transitionPlaces, value, Item.isTransition, Item.clause, Clause.steps]
    rw [transitionPlaces_cons, List.length_append, ih, one]
    exact List.length_append.symm

variable {early late : List Clause} {source symbol target name : String}

theorem withStates_insert (name : String) (early late : List Clause)
    (source symbol target : String) :
    withStates name (early ++ .transition source symbol target :: late) =
      withStates name (early ++ late) := by
  simp [withStates, Clause.newStates]

theorem admits_insert (symbol : String) (admits : a.Admits (early ++ late))
    (known : source ∈ a.states) (known' : target ∈ a.states) :
    a.Admits (early ++ .transition source symbol target :: late) := by
  obtain ⟨listed, initial⟩ := admits
  constructor
  · simp only [List.flatMap_append, List.flatMap_cons, List.forall_mem_append] at listed ⊢
    refine ⟨listed.1, ?_, listed.2⟩
    simp [Clause.references, known, known']
  · simpa [Clause.initials] using initial

/-- Items with one transition more amount to an automaton with that transition. -/
theorem gains_extended (a : Automaton) (early late : List Clause) (source symbol target : String) :
    (a.extended (early ++ late)).Gains
      (a.extended (early ++ .transition source symbol target :: late))
      (a.transitions.length + (early.flatMap Clause.steps).length)
      ⟨indexAmong a.states source, symbol, indexAmong a.states target⟩ := by
  let index (step : String × String × String) : Transition :=
    ⟨indexAmong a.states step.1, step.2.1, indexAmong a.states step.2.2⟩
  let first := a.transitions ++ (early.flatMap Clause.steps).map index
  let second := (late.flatMap Clause.steps).map index
  have count : first.length = a.transitions.length + (early.flatMap Clause.steps).length := by
    rw [List.length_append, List.length_map]
  have old : (a.extended (early ++ late)).transitions = first ++ second := by
    simp only [extended, List.flatMap_append, List.map_append, ← List.append_assoc, first, second]
    rfl
  refine ⟨rfl, rfl, ?_, ?_, ?_, ?_, ?_⟩
  · simp [extended, Clause.initials]
  · simp [extended, Clause.accepted]
  · intro s
    simp only [extended, mem_foldl_appendNew, List.flatMap_append, List.flatMap_cons,
      List.mem_append, Clause.symbols, List.mem_singleton]
    tauto
  · rw [old, ← count]
    exact (List.prefix_append first second).length_le
  · rw [old, ← count, List.take_left, List.drop_left]
    simp only [extended, List.flatMap_append, List.flatMap_cons, List.map_append,
      ← List.append_assoc, first, second]
    simp [Clause.steps, index]

theorem Gains.of_unplaced {b : Automaton} {k : Nat} {t : Transition}
    (h : a.unplaced.Gains b.unplaced k t) : a.Gains b k t :=
  ⟨h.name, h.states, h.initial, h.accepting, h.alphabet, h.bound, h.transitions⟩

/-- The place of a transition among the items of a block is where its automaton says. -/
theorem transitionSpan?_of_items {block : Located Block} {item : Located Item}
    {before others : List (Located Item)} (h : ofBlock file name block = .ok a)
    (items : block.value.items = before ++ item :: others) (kind : item.value.isTransition = true) :
    a.transitionSpan? ((clausesOf before).flatMap Clause.steps).length = some (item.span file) := by
  have here : transitionPlaces file (item :: others) =
      item.span file :: transitionPlaces file others := by
    simp [transitionPlaces, kind]
  rw [(records_of_ofBlock h).transitionSpan?_eq, items, transitionPlaces_append, here,
    ← length_transitionPlaces file before, List.getElem?_append_right (Nat.le_refl _), Nat.sub_self,
    List.getElem?_cons_zero]

/-- A block with one transition more makes an automaton with that transition. -/
theorem exists_ofBlock_gains {block block' : Located Block} {item : Located Item}
    {others : List (Located Item)} {n : Nat} (h : ofBlock file name block = .ok a)
    (items : block'.value.items = block.value.items.take n ++ item :: others)
    (same : clausesOf others = clausesOf (block.value.items.drop n))
    (spells : item.value.clause = .transition source symbol target)
    (declared : ∀ state ∈ [source, target],
      state ∈ (clausesOf block.value.items).flatMap Clause.newStates) :
    ∃ b k t, ofBlock file name block' = .ok b ∧ a.Gains b k t ∧ b.stateName? t.source = some source ∧
      t.symbol = symbol ∧ b.stateName? t.target = some target ∧
      b.transitionSpan? k = some (item.span file) := by
  let early := clausesOf (block.value.items.take n)
  let late := clausesOf (block.value.items.drop n)
  have before : block.value.outline.clauses = early ++ late := by
    rw [← clausesOf_append, List.take_append_drop]
    rfl
  have after : block'.value.outline.clauses = early ++ .transition source symbol target :: late := by
    change clausesOf block'.value.items = _
    rw [items, clausesOf_append, ← spells]
    exact congrArg (fun late => early ++ item.value.clause :: late) same
  obtain ⟨admits, amounts⟩ := exists_ofBlock_iff.mp ⟨a, h, rfl⟩
  rw [before] at admits amounts
  let w := withStates name (early ++ late)
  have known (state : String) (member : state ∈ [source, target]) : state ∈ w.states := by
    have listed := declared state member
    change state ∈ block.value.outline.clauses.flatMap Clause.newStates at listed
    rw [before] at listed
    exact mem_foldl_appendNew.mpr (.inr listed)
  have admits' := admits_insert symbol admits (known source (by simp))
    (known target (by simp))
  rw [← withStates_insert name early late source symbol target, ← after] at admits'
  obtain ⟨b, carried, amounts'⟩ := exists_ofBlock_iff.mpr ⟨admits', rfl⟩
  rw [after, withStates_insert] at amounts'
  have gains : a.Gains b (early.flatMap Clause.steps).length
      ⟨indexAmong w.states source, symbol, indexAmong w.states target⟩ := by
    apply Gains.of_unplaced
    rw [amounts, amounts', ← Nat.zero_add (early.flatMap Clause.steps).length]
    exact gains_extended w early late source symbol target
  have states : b.states = w.states := by
    change b.unplaced.states = _
    rw [amounts']
    rfl
  have named (state : String) (member : state ∈ [source, target]) :
      b.stateName? (indexAmong w.states state) = some state := by
    apply stateName?_of_stateIndex?
    rw [stateIndex?_eq_some_iff, states]
    exact ⟨known state member, rfl⟩
  have kind : item.value.isTransition = true := by
    cases value : item.value <;> simp_all [Item.clause, Item.isTransition]
  exact ⟨b, _, _, carried, gains, named source (by simp), rfl, named target (by simp),
    transitionSpan?_of_items carried items kind⟩

end Automaton

section Declarations

variable {file : Nat} {block block' : Located Block} {e : Declaration}

theorem exists_of_forall₂_append {α β : Type} {R : α → β → Prop} {xs ys : List α} {zs : List β}
    (related : List.Forall₂ R (xs ++ ys) zs) :
    ∃ us vs, zs = us ++ vs ∧ List.Forall₂ R xs us ∧ List.Forall₂ R ys vs := by
  induction xs generalizing zs with
  | nil => exact ⟨[], zs, rfl, .nil, related⟩
  | cons x xs ih =>
    cases related with
    | @cons _ z _ _ first others =>
      obtain ⟨us, vs, rfl, left, right⟩ := ih others
      exact ⟨z :: us, vs, rfl, .cons first left, right⟩

theorem Declares.exists_of_restates (declares : Declares file block e)
    (restates : Restates block' block) : ∃ e', Declares file block' e' ∧ e'.unplaced = e.unplaced := by
  obtain ⟨a, carried, same⟩ := Automaton.exists_ofBlock_of_restates restates declares.body
  refine ⟨e.withAutomaton a, declares.withAutomaton restates.kind restates.id carried, ?_⟩
  simp [Declaration.unplaced, same]

/-- Blocks that say the same declare the same. -/
theorem exists_declares_of_restates {blocks blocks' : List (Located Block)}
    {declarations : List Declaration} (restates : List.Forall₂ Restates blocks' blocks)
    (declares : List.Forall₂ (Declares file) blocks declarations) :
    ∃ declarations', List.Forall₂ (Declares file) blocks' declarations' ∧
      declarations'.map Declaration.unplaced = declarations.map Declaration.unplaced := by
  induction restates generalizing declarations with
  | nil =>
    cases declares
    exact ⟨[], .nil, rfl⟩
  | cons first _ ih =>
    cases declares with
    | cons here others =>
      obtain ⟨e', here', same⟩ := here.exists_of_restates first
      obtain ⟨declarations', others', alike⟩ := ih others
      exact ⟨e' :: declarations', .cons here' others', by rw [List.map_cons, same, alike]; rfl⟩

end Declarations

namespace Document

/-- What a message prints for a transition, with a semicolon after it, is an item for any block that
declares both states: it adds this transition and nothing else. Layout around it does not matter,
nor does its place among the other items. -/
theorem parse_described {a : Automaton} {t : Transition} {source target : String} {file : Nat}
    {text : String} {d : Document} {earlier later : List (Located Block)} {block : Located Block}
    (n : Nat) (lead trail : Gap) (sourceNamed : a.stateName? t.source = some source)
    (targetNamed : a.stateName? t.target = some target)
    (writable : ∀ name ∈ [source, t.symbol, target], Name.Writable name)
    (undashed : t.symbol.toList.getLast? ≠ some '-') (accepted : parse file text = .ok d)
    (read : readBlocks text = .ok (earlier ++ block :: later))
    (declared : ∀ state ∈ [source, target],
      state ∈ (clausesOf block.value.items).flatMap Clause.newStates) :
    ∃ before e after b after' k u,
      d = ofDeclarations (before ++ e :: after) ∧ List.Forall₂ (Declares file) earlier before ∧
      Declares file block e ∧
      parse file (insertedAt (block.slot n)
        (gapText lead ++ ((a.describe t ++ ";").toList ++ gapText trail)) text) =
          .ok (ofDeclarations (before ++ e.withAutomaton b :: after')) ∧
      after'.map Declaration.unplaced = after.map Declaration.unplaced ∧
      e.automaton.Gains b k u ∧ b.stateName? u.source = some source ∧ u.symbol = t.symbol ∧
      b.stateName? u.target = some target ∧
      b.transitionSpan? k = some ⟨block.slot n + byteLength (gapText lead),
        block.slot n + byteLength (gapText lead) + (a.describe t ++ ";").utf8ByteSize, file⟩ := by
  have first := writable source (by simp)
  have second := writable t.symbol (by simp)
  have third := writable target (by simp)
  have spelled : a.describe t ++ ";" = Grammar.spelledTransition source t.symbol target := by
    simp only [Automaton.describe, Automaton.describeState, sourceNamed, targetNamed]
    rfl
  have solid : Solid (a.describe t ++ ";").toList := by
    rw [spelled]
    exact Grammar.solid_spelledTransition first
  obtain ⟨blocks, declarations, read', declares, apart, rfl⟩ := parse_eq_ok_iff.mp accepted
  cases read'.symm.trans read
  obtain ⟨before, _, rfl, earlierDeclares, others⟩ := exists_of_forall₂_append declares
  cases others with
  | @cons _ e _ after here laterDeclares =>
    obtain ⟨block', later', item, items, readAgain, kind, id, listed, spells, start, stop, same,
      restates⟩ := readBlocks_insertedAt n read (isGap_gapText lead) solid (isGap_gapText trail)
        (fun rest => by rw [spelled]; exact Grammar.item_reads first second undashed third)
    obtain ⟨b, k, u, carried, gains, sourceKept, symbolKept, targetKept, place⟩ :=
      Automaton.exists_ofBlock_gains here.body listed same spells declared
    obtain ⟨after', laterDeclares', alike⟩ := exists_declares_of_restates restates laterDeclares
    have here' := here.withAutomaton kind id carried
    have apart' : (traceIds (before ++ e.withAutomaton b :: after')).Nodup := by
      rwa [traceIds_append, traceIds_cons, traceIds_withAutomaton, traceIds_eq_of_unplaced alike,
        ← traceIds_cons, ← traceIds_append]
    refine ⟨before, e, after, b, after', k, u, rfl, earlierDeclares, here, ?_, alike, gains,
      sourceKept, symbolKept, targetKept, ?_⟩
    · exact parse_eq_ok_iff.mpr ⟨_, _, readAgain,
        List.rel_append earlierDeclares (.cons here' laterDeclares'), apart', rfl⟩
    · rw [place, Located.span, stop, start, utf8ByteSize_eq]

end Document

namespace Sample

/-- Names with dashes at their ends, one of which begins with a word of the grammar. -/
def dashes : Automaton where
  name := "dashes"
  states := ["states", "init-"]
  alphabet := ["-x"]
  initial := none
  accepting := []
  transitions := [⟨0, "-x", 1⟩]
  span := none
  transitionSpans := []

def dashesText : String :=
  "constraint T5\x7bstates init- states;init- --y->states;\x7d trace 8\x7b\x7d"

def dashesBlock : Located Block :=
  ⟨⟨.constraint, ⟨"T5", 11, 13⟩, [⟨.states [⟨"init-", 21, 26⟩, ⟨"states", 27, 33⟩], 14, 34⟩,
    ⟨.transition ⟨"init-", 34, 39⟩ ⟨"y", 42, 43⟩ ⟨"states", 45, 51⟩, 34, 52⟩]⟩, 0, 53⟩

def dashesDocument : Document where
  traces := [⟨8, ⟨"trace 8", [], [], none, [], [], some ⟨54, 63, 0⟩, []⟩⟩]
  constraints := [⟨⟨"T5", by decide, by decide⟩, ⟨"T5", ["init-", "states"], ["y"], none, [],
    [⟨0, "y", 1⟩], some ⟨0, 53, 0⟩, [some ⟨34, 52, 0⟩]⟩⟩]

def lineBreak : Gap := [.lineEnd .lineFeed]

def remark : Gap := [.comment ['ß'] (List.forall_mem_singleton.mpr rfl) .both]

/-- A transition that is put in between the two items. -/
def dashesExtended : String :=
  insertedAt (dashesBlock.slot 1)
    (gapText lineBreak ++ ((dashes.describe ⟨0, "-x", 1⟩ ++ ";").toList ++ gapText remark)) dashesText

end Sample

theorem Document.parse_described_sample :
    Sample.dashesExtended = "constraint T5\x7bstates init- states;\nstates ---x-> init-;//ß\r\n" ++
      "init- --y->states;\x7d trace 8\x7b\x7d" ∧
    ∃ before e after b after' k u,
      Sample.dashesDocument = ofDeclarations (before ++ e :: after) ∧
      List.Forall₂ (Declares 0) [] before ∧ Declares 0 Sample.dashesBlock e ∧
      parse 0 Sample.dashesExtended = .ok (ofDeclarations (before ++ e.withAutomaton b :: after')) ∧
      after'.map Declaration.unplaced = after.map Declaration.unplaced ∧
      e.automaton.Gains b k u ∧ b.stateName? u.source = some "states" ∧ u.symbol = "-x" ∧
      b.stateName? u.target = some "init-" ∧ b.transitionSpan? k = some ⟨35, 55, 0⟩ := by
  have accepted : parse 0 Sample.dashesText = .ok Sample.dashesDocument :=
    eq_ok_of_toOption (by decide +kernel)
  have read : readBlocks Sample.dashesText = .ok ([] ++ Sample.dashesBlock ::
      [⟨⟨.trace, ⟨"8", 60, 61⟩, []⟩, 54, 63⟩]) :=
    eq_ok_of_toOption (by decide +kernel)
  refine ⟨by decide +kernel, ?_⟩
  exact parse_described (a := Sample.dashes) (t := ⟨0, "-x", 1⟩) 1 Sample.lineBreak Sample.remark
    rfl rfl (by decide +kernel) (by decide) accepted read (by decide)

end AlignPlan
