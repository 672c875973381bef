import AlignPlan.Proofs.Format.Meaning
import AlignPlan.Proofs.Format.OwnText

/-! The order of the items in a block. Items may change places in the text of a block as long as
states stay in order among themselves, accepting states among themselves, and alphabets and
transitions among themselves: the file is read as before, and what it declares stays the same
except for places. -/
namespace AlignPlan

open Format

namespace Format

/-- What an item has a say in. Alphabets and transitions both add to the alphabet. -/
inductive Item.Group
  | states | symbols | init | accept
  deriving DecidableEq

def Item.group : Item → Item.Group
  | .states _ => .states
  | .alphabet _ => .symbols
  | .init _ => .init
  | .accept _ => .accept
  | .transition _ _ _ => .symbols

/-- The same items, of which only those that set the initial state may pass others of their own
group. -/
structure Reordered (items' items : List (Located Item)) : Prop where
  perm : items'.Perm items
  inOrder : ∀ group, group ≠ .init →
    items'.filter (fun item => item.value.group = group) =
      items.filter (fun item => item.value.group = group)

/-- What the items of a block state. -/
def clausesOf (items : List (Located Item)) : List Clause := items.map fun item => item.value.clause

theorem flatMap_clausesOf {γ : Type} {f : Clause → List γ} {group : Item.Group}
    (only : ∀ item : Item, item.group ≠ group → f item.clause = []) (items : List (Located Item)) :
    (clausesOf items).flatMap f =
      (clausesOf (items.filter fun item => item.value.group = group)).flatMap f := by
  induction items with
  | nil => rfl
  | cons item items ih =>
    by_cases same : item.value.group = group
    · simp_all [clausesOf]
    · simp_all [clausesOf, only item.value same]

variable {items' items : List (Located Item)}

theorem Reordered.flatMap_eq (h : Reordered items' items) {γ : Type} {f : Clause → List γ}
    (group : Item.Group) (ordered : group ≠ .init := by decide)
    (only : ∀ item : Item, item.group ≠ group → f item.clause = [] := by
      rintro (_ | _ | _ | _ | _) other <;> first | rfl | exact absurd rfl other) :
    (clausesOf items').flatMap f = (clausesOf items).flatMap f := by
  rw [flatMap_clausesOf only, h.inOrder group ordered, ← flatMap_clausesOf only]

theorem Reordered.flatMap_perm (h : Reordered items' items) {γ : Type} (f : Clause → List γ) :
    ((clausesOf items').flatMap f).Perm ((clausesOf items).flatMap f) :=
  (h.perm.map _).flatMap_right f

/-- There is nothing to reorder in one initial state. -/
theorem Reordered.initials_eq (h : Reordered items' items)
    (one : ((clausesOf items).flatMap Clause.initials).length ≤ 1) :
    (clausesOf items').flatMap Clause.initials = (clausesOf items).flatMap Clause.initials := by
  have same := h.flatMap_perm Clause.initials
  match found : (clausesOf items).flatMap Clause.initials with
  | [] => exact List.perm_nil.mp (found ▸ same)
  | [name] => exact List.perm_singleton.mp (found ▸ same)
  | _ :: _ :: _ => simp [found] at one

end Format

namespace Automaton

variable {a : Automaton} {items' items : List (Located Item)}

theorem withStates_of_reordered (h : Reordered items' items) (name : String) :
    withStates name (clausesOf items') = withStates name (clausesOf items) := by
  rw [withStates, h.flatMap_eq .states, withStates]

theorem admits_of_reordered (h : Reordered items' items) (admits : a.Admits (clausesOf items)) :
    a.Admits (clausesOf items') := by
  obtain ⟨known, initial⟩ := admits
  rw [← h.initials_eq (by omega)] at initial
  exact ⟨fun name member => known name ((h.flatMap_perm _).mem_iff.mp member), initial⟩

theorem extended_of_reordered (h : Reordered items' items) (admits : a.Admits (clausesOf items)) :
    a.extended (clausesOf items') = a.extended (clausesOf items) := by
  have initials := h.initials_eq (by have := admits.initial; omega)
  have symbols := h.flatMap_eq .symbols (f := Clause.symbols)
  have accepted := h.flatMap_eq .accept (f := Clause.accepted)
  have steps := h.flatMap_eq .symbols (f := Clause.steps)
  simp only [extended, initials, symbols, accepted, steps]

end Automaton

theorem Format.Reordered.refl (items : List (Located Item)) : Reordered items items :=
  ⟨.refl _, fun _ _ => rfl⟩

/-- A block that says the same as another one, with its items in an order that makes no
difference. -/
structure Restates (block' block : Located Block) : Prop where
  kind : block'.value.kind = block.value.kind
  id : block'.value.id.value = block.value.id.value
  items : ∃ items, Reordered items block.value.items ∧
    clausesOf block'.value.items = clausesOf items

theorem Automaton.exists_ofBlock_of_restates {file : Nat} {name : String} {a : Automaton}
    {block' block : Located Block} (restates : Restates block' block)
    (h : ofBlock file name block = .ok a) :
    ∃ a', ofBlock file name block' = .ok a' ∧ a'.unplaced = a.unplaced := by
  obtain ⟨items, reordered, same⟩ := restates.items
  obtain ⟨admits, amounts⟩ := exists_ofBlock_iff.mp ⟨a, h, rfl⟩
  rw [exists_ofBlock_iff]
  change (withStates name (clausesOf block'.value.items)).Admits (clausesOf block'.value.items) ∧
    _ = (withStates name (clausesOf block'.value.items)).extended (clausesOf block'.value.items)
  rw [same, withStates_of_reordered reordered]
  exact ⟨admits_of_reordered reordered admits,
    amounts.trans (extended_of_reordered reordered admits).symm⟩

namespace Document

/-- A document without places in a file. -/
def unplaced (d : Document) : Document where
  traces := d.traces.map fun t => ⟨t.id, t.automaton.unplaced⟩
  constraints := d.constraints.map fun c => ⟨c.id, c.automaton.unplaced⟩

variable {d d' e : Document} {file : Nat} {block block' : Located Block}
  {blocks blocks' : List (Located Block)}

theorem ids_eq_of_unplaced (same : d'.unplaced = d.unplaced) :
    d'.traces.map TraceInput.id = d.traces.map TraceInput.id := by
  have ids := congrArg (fun d => d.traces.map TraceInput.id) same
  simpa [unplaced, Function.comp_def] using ids

theorem exists_addBlock_of_restates (same : d'.unplaced = d.unplaced)
    (restates : Restates block' block) (h : d.addBlock file block = .ok e) :
    ∃ e', d'.addBlock file block' = .ok e' ∧ e'.unplaced = e.unplaced := by
  obtain ⟨traces, constraints⟩ := Document.mk.inj same
  rcases addBlock_eq_ok_iff.mp h with ⟨kind, t, declares, fresh, rfl⟩ | ⟨kind, c, declares, rfl⟩
  · obtain ⟨a, carried, alike⟩ := Automaton.exists_ofBlock_of_restates restates declares.body
    refine ⟨_, addBlock_eq_ok_iff.mpr (.inl ⟨restates.kind.trans kind, ⟨t.id, a⟩,
      ⟨by rw [restates.id, declares.number], carried⟩, ?_, rfl⟩), ?_⟩
    · rw [ids_eq_of_unplaced same]
      exact fresh
    · simp only [unplaced, List.map_append, traces, constraints, List.map_cons, alike, List.map_nil]
  · obtain ⟨a, carried, alike⟩ := Automaton.exists_ofBlock_of_restates restates declares.body
    refine ⟨_, addBlock_eq_ok_iff.mpr (.inr ⟨restates.kind.trans kind, ⟨c.id, a⟩,
      ⟨by rw [restates.id, declares.id], carried⟩, rfl⟩), ?_⟩
    simp only [unplaced, List.map_append, traces, constraints, List.map_cons, alike, List.map_nil]

/-- Blocks that say the same, one by one, add the same. -/
theorem exists_addBlocks_of_restates (restates : List.Forall₂ Restates blocks' blocks)
    (same : d'.unplaced = d.unplaced) (h : d.addBlocks file blocks = .ok e) :
    ∃ e', d'.addBlocks file blocks' = .ok e' ∧ e'.unplaced = e.unplaced := by
  induction restates generalizing d d' with
  | nil =>
    cases h
    exact ⟨d', rfl, same⟩
  | @cons block' block blocks' blocks first _ ih =>
    rw [addBlocks] at h
    split at h
    next => cases h
    next next added =>
      obtain ⟨next', added', same'⟩ := exists_addBlock_of_restates same first added
      simp only [addBlocks, added']
      exact ih same' h

end Document

namespace Format

theorem clause_move (n : Nat) (item : Located Item) :
    (move n item).value.clause = item.value.clause := by
  obtain ⟨value, start, stop⟩ := item
  have kept (names : List Token) : (move n names).map Located.value = names.map Located.value :=
    List.map_map.trans rfl
  cases value with
  | states names => exact congrArg Clause.states (kept names)
  | alphabet names => exact congrArg Clause.alphabet (kept names)
  | init name => rfl
  | accept names => exact congrArg Clause.accept (kept names)
  | transition source symbol target => rfl

theorem clausesOf_move (n : Nat) (items : List (Located Item)) :
    clausesOf (move n items) = clausesOf items :=
  List.map_map.trans (List.map_congr_left fun item _ => clause_move n item)

/-- A reading position in a text. -/
def Cursor.Within (text : List Char) (c : Cursor) : Prop :=
  ∃ before, text = before ++ c.rest ∧ c.offset = byteLength before

namespace Cursor

variable {text own : List Char} {c c' : Cursor}

theorem Within.advance (within : c.Within text) (whole : c.rest = own ++ c'.rest)
    (stop : c'.offset = c.offset + byteLength own) : c'.Within text := by
  obtain ⟨before, same, offset⟩ := within
  exact ⟨before ++ own, by rw [same, whole, List.append_assoc], by
    rw [stop, offset, byteLength_append]⟩

theorem Within.textFrom_eq (within : c.Within text) : textFrom c.offset text = c.rest := by
  obtain ⟨before, rfl, offset⟩ := within
  rw [offset, textFrom_append]

theorem Within.textIn_eq {α : Type} {x : Located α} (within : c.Within text)
    (whole : c.rest = own ++ c'.rest) (start : x.start = c.offset)
    (stop : x.stop = c.offset + byteLength own) : x.textIn text = own := by
  obtain ⟨before, rfl, offset⟩ := within
  rw [whole, ← List.append_assoc]
  exact textIn_append (start.trans offset) (by rw [stop, offset])

theorem Within.skip (within : c.Within text) (some : c.skip.rest ≠ []) : c.skip.Within text := by
  obtain ⟨gap, _, rest, offset⟩ := exists_gap some
  exact within.advance rest offset

end Cursor

section Excerpts

variable {α : Type} [Movable α] {q : Phrase α} {text : List Char} {c c' : Cursor}
  {xs : List (Located α)}

/-- What was read off a part of a text is read off that part alone. -/
theorem exists_spells_of_mem (h : q.located.Local .nothing) (repeats : q.located.Repeats c xs c')
    (within : c.Within text) : ∀ x ∈ xs, ∃ y, x = move x.start y ∧
      ∀ rest, q.located.Spells .nothing (x.textIn text) y rest := by
  induction repeats with
  | done => simp
  | @more c next c' x xs first others ih =>
    obtain ⟨own, y, whole, same, spelled⟩ := h c.skip x next c.skip_skip first
    obtain ⟨_, start, stop⟩ := Phrase.read_located_iff.mp first
    have end' := spelled.offset_eq whole first
    have here := within.skip (h.rest_ne_nil first)
    rw [List.forall_mem_cons]
    refine ⟨⟨y, ?_, ?_⟩, ih (here.advance whole end')⟩
    · rw [start]
      exact same
    · intro rest
      rw [here.textIn_eq whole start (stop.trans end')]
      exact ⟨spelled.solid, spelled.covers, fun offset rest' _ => spelled.read offset rest' trivial⟩

/-- Parts of a text, each after a gap. -/
def excerpts (text : List Char) (placed : List (Gap × Located α)) : List Char :=
  placed.flatMap fun (gap, x) => gapText gap ++ x.textIn text

omit [Movable α] in
theorem stop_of_repeats {x : Located α} (repeats : q.located.Repeats c xs c')
    (last : xs.getLast? = some x) : x.stop = c'.offset := by
  induction repeats with
  | done => cases last
  | @more c next c' y ys first others ih =>
    cases others with
    | done =>
      cases last
      exact (Phrase.read_located_iff.mp first).2.2
    | more =>
      rw [List.getLast?_cons_cons] at last
      exact ih last

/-- Such parts are read again in their new order. -/
theorem exists_repeats_excerpts {β : Type} {f : Located α → β} (moved : ∀ n x, f (move n x) = f x)
    {p : Phrase (Located α)} {placed : List (Gap × Located α)}
    (spelled : ∀ x ∈ placed.map Prod.snd, ∃ y, x = move x.start y ∧
      ∀ rest, p.Spells .nothing (x.textIn text) y rest) (offset : Nat) (rest : List Char) :
    ∃ ys, p.Repeats ⟨offset, excerpts text placed ++ rest⟩ ys
        ⟨offset + byteLength (excerpts text placed), rest⟩ ∧
      ys.map f = (placed.map Prod.snd).map f := by
  induction placed generalizing offset with
  | nil => exact ⟨[], .done _, rfl⟩
  | cons one placed ih =>
    obtain ⟨gap, x⟩ := one
    rw [List.map_cons, List.forall_mem_cons] at spelled
    obtain ⟨⟨y, same, first⟩, others⟩ := spelled
    obtain ⟨ys, repeats, kept⟩ :=
      ih others (offset + byteLength (gapText gap) + byteLength (x.textIn text))
    have found := (first rest).read (offset + byteLength (gapText gap))
      (excerpts text placed ++ rest) trivial
    rw [← Cursor.skip_gap (isGap_gapText gap) (first rest).solid] at found
    refine ⟨move (offset + byteLength (gapText gap)) y :: ys, ?_, ?_⟩
    · have both := Phrase.Repeats.more found repeats
      simp only [excerpts, List.flatMap_cons, List.append_assoc, byteLength_append,
        ← Nat.add_assoc] at both ⊢
      exact both
    · rw [List.map_cons, kept, List.map_cons, List.map_cons, moved, ← moved x.start y, ← same]

end Excerpts

namespace Grammar

open Phrase

/-- A text that opens a block like `b`, whatever items follow. -/
def Opens (head : List Char) (b : Located Block) : Prop :=
  ∀ offset rest items after c', item.Repeats ⟨offset + byteLength head, rest⟩ items after →
    (literal "\x7d").read after.skip = some ((), c') →
    ∃ b', anyBlock.read (⟨offset, head ++ rest⟩ : Cursor).skip = some (b', c') ∧
      b'.value.kind = b.value.kind ∧ b'.value.id.value = b.value.id.value ∧ b'.value.items = items

theorem exists_opening (kind : BlockKind) {symbol : Symbol} {id : Phrase Token}
    (hid : id.Local .opening) (among : ∀ c b c', (block kind symbol kind.word id).read c =
      some (b, c') → anyBlock.read c = some (b, c')) {c c' : Cursor} {b : Located Block}
    (found : (block kind symbol kind.word id).read c.skip = some (b, c')) :
    ∃ head inside after, c.rest = head ++ inside.rest ∧
      inside.offset = c.offset + byteLength head ∧ Opens head b ∧
      item.Repeats inside b.value.items after ∧
      (literal "\x7d").read after.skip = some ((), c') := by
  obtain ⟨token, inside, after, opened, repeats, closed, same⟩ := read_block_iff.mp found
  obtain ⟨head, y, whole, moved, _, resumed⟩ := (local_opening kind hid).resumes opened
  refine ⟨head, inside, after, whole, resumed.offset_eq whole opened, ?_, repeats, closed⟩
  intro offset rest items after' d' repeats' closed'
  have opened' := resumed.read offset rest trivial
  refine ⟨⟨⟨kind, move offset y, items⟩, (⟨offset, head ++ rest⟩ : Cursor).skip.offset, d'.offset⟩,
    among _ _ _ (read_block_iff.mpr ⟨_, _, after', opened', repeats', closed', rfl⟩), ?_, ?_, rfl⟩
  · rw [same]
  · rw [same, moved]
    rfl

theorem exists_opens {c c' : Cursor} {b : Located Block}
    (found : anyBlock.read c.skip = some (b, c')) : ∃ head inside after,
      c.rest = head ++ inside.rest ∧ inside.offset = c.offset + byteLength head ∧ Opens head b ∧
      item.Repeats inside b.value.items after ∧
      (literal "\x7d").read after.skip = some ((), c') := by
  have ofTrace (d : Cursor) (b : Located Block) (d' : Cursor)
      (h : trace.read d = some (b, d')) : anyBlock.read d = some (b, d') :=
    Option.or_eq_some_iff.mpr (.inl h)
  have ofConstraint (d : Cursor) (b : Located Block) (d' : Cursor)
      (h : constraint.read d = some (b, d')) : anyBlock.read d = some (b, d') :=
    Option.or_eq_some_iff.mpr
      (.inr ⟨(trace_apart_constraint d).resolve_right (by simp [h]), h⟩)
  rcases Option.or_eq_some_iff.mp found with first | ⟨_, second⟩
  · exact exists_opening .trace local_number ofTrace first
  · exact exists_opening .constraint local_ident ofConstraint second

end Grammar

theorem restates_move (m n : Nat) (b : Located Block) : Restates (move m b) (move n b) := by
  refine ⟨rfl, rfl, (move n b).value.items, .refl _, ?_⟩
  exact (clausesOf_move m b.value.items).trans (clausesOf_move n b.value.items).symm

theorem forall₂_restates_move (m n : Nat) (blocks : List (Located Block)) :
    List.Forall₂ Restates (move m blocks) (move n blocks) := by
  induction blocks with
  | nil => exact .nil
  | cons block blocks ih => exact .cons (restates_move m n block) ih

theorem restates_refl (b : Located Block) : Restates b b :=
  ⟨rfl, rfl, b.value.items, .refl _, rfl⟩

theorem forall₂_restates_refl (blocks : List (Located Block)) :
    List.Forall₂ Restates blocks blocks :=
  List.forall₂_same.mpr fun block _ => restates_refl block

/-- Where the body of a block stands in a file, and that it may be replaced by any other one. What
comes before the items and what comes after the closing bracket stays. -/
theorem exists_body_in_file {text : String} {earlier later : List (Located Block)}
    {block : Located Block} (read : readBlocks text = .ok (earlier ++ block :: later)) :
    ∃ before start inside last stop, text.toList = before ++ inside.rest ∧
      inside.offset = byteLength before ∧ Grammar.anyBlock.read start = some (block, stop) ∧
      Grammar.item.Repeats inside block.value.items last ∧
      (Phrase.literal "\x7d").read last.skip = some ((), stop) ∧
      ∀ own items after stop', Grammar.item.Repeats ⟨byteLength before, own⟩ items after →
        (Phrase.literal "\x7d").read after.skip = some ((), stop') → stop'.rest = stop.rest →
        ∃ block' later', readBlocks (String.ofList (before ++ own)) =
            .ok (earlier ++ block' :: later') ∧ block'.value.kind = block.value.kind ∧
          block'.value.id.value = block.value.id.value ∧ block'.value.items = items ∧
          List.Forall₂ Restates later' later := by
  obtain ⟨ended, all, nothing⟩ := readBlocks_eq_ok_iff.mp read
  obtain ⟨start, earlierRead, others⟩ := Phrase.exists_repeats_append all
  cases others with
  | @more _ stop _ _ _ found laterRead =>
    obtain ⟨front, ys, wholeFront, offsetFront, _, sameEarlier, againEarlier⟩ :=
      Grammar.local_anyBlock.repeats earlierRead
    obtain ⟨back, zs, wholeBack, _, _, rfl, againLater⟩ := Grammar.local_anyBlock.repeats laterRead
    obtain ⟨head, inside, last, wholeHead, offsetHead, opens, items, closed⟩ :=
      Grammar.exists_opens found
    have start0 : start.offset = byteLength front := offsetFront.trans (Nat.zero_add _)
    refine ⟨front ++ head, start.skip, inside, last, stop, ?_, ?_, found, items, closed, ?_⟩
    · rw [List.append_assoc, ← wholeHead, ← wholeFront]
      rfl
    · rw [offsetHead, start0, byteLength_append]
    · intro own items' after stop' repeats closed' same
      rw [byteLength_append] at repeats
      obtain ⟨block', found', kind, id, items⟩ := opens _ _ _ _ _ repeats closed'
      have before := againEarlier 0 (head ++ own) trivial
      rw [Nat.zero_add, show move 0 ys = earlier from sameEarlier.symm] at before
      have after := againLater stop'.offset ended.rest trivial
      rw [← wholeBack, ← same] at after
      refine ⟨block', move stop'.offset zs, readBlocks_eq_ok_iff.mpr
        ⟨⟨stop'.offset + byteLength back, ended.rest⟩, ?_, ?_⟩, kind, id, items, ?_⟩
      · rw [Cursor.ofString, String.toList_ofList, List.append_assoc]
        exact before.append (.more found' after)
      · exact (Cursor.rest_skipFrom _ _ _ _).trans nothing
      · exact forall₂_restates_move _ _ zs

/-- Where the items of a block stand in a file, and that they may be replaced by any others. -/
theorem exists_items_in_file {text : String} {earlier later : List (Located Block)}
    {block : Located Block} (read : readBlocks text = .ok (earlier ++ block :: later)) :
    ∃ before inside last, text.toList = before ++ inside.rest ∧ inside.offset = byteLength before ∧
      Grammar.item.Repeats inside block.value.items last ∧
      ∀ own items after, Grammar.item.Repeats ⟨byteLength before, own ++ last.rest⟩ items after →
        after.skip = (⟨byteLength before + byteLength own, last.rest⟩ : Cursor).skip →
        ∃ block' later', readBlocks (String.ofList (before ++ (own ++ last.rest))) =
            .ok (earlier ++ block' :: later') ∧ block'.value.kind = block.value.kind ∧
          block'.value.id.value = block.value.id.value ∧ block'.value.items = items ∧
          List.Forall₂ Restates later' later := by
  obtain ⟨before, start, inside, last, stop, whole, offset, _, items, closed, replace⟩ :=
    exists_body_in_file read
  obtain ⟨tail, _, wholeTail, _, _, resumed⟩ := Grammar.local_closeBracket.resumes closed
  refine ⟨before, inside, last, whole, offset, items, ?_⟩
  intro own items' after repeats same
  have closed' := resumed.read (byteLength before + byteLength own) stop.rest trivial
  rw [← wholeTail, ← same] at closed'
  exact replace _ items' after _ repeats closed' rfl

/-- A file in which the items of a block stand in another order, with other gaps between them. The
text before the first of them and the text after the last stay. -/
def rearranged (text : String) (items : List (Located Item))
    (placed : List (Gap × Located Item)) : String :=
  match items.head?, items.getLast? with
  | some first, some last =>
    String.ofList (textBefore first.start text.toList ++
      (excerpts text.toList placed ++ textFrom last.stop text.toList))
  | _, _ => text

theorem readBlocks_rearranged {text : String} {earlier later : List (Located Block)}
    {block : Located Block} {placed : List (Gap × Located Item)}
    (read : readBlocks text = .ok (earlier ++ block :: later))
    (reordered : Reordered (placed.map Prod.snd) block.value.items) :
    ∃ block' later', readBlocks (rearranged text block.value.items placed) =
        .ok (earlier ++ block' :: later') ∧ Restates block' block ∧
      List.Forall₂ Restates later' later := by
  obtain ⟨before, inside, last, whole, begins, repeats, replace⟩ := exists_items_in_file read
  match listed : block.value.items with
  | [] =>
    exact ⟨block, later, read, restates_refl block, forall₂_restates_refl later⟩
  | x :: xs =>
    rw [listed] at repeats reordered
    obtain ⟨z, final⟩ : ∃ z, (x :: xs).getLast? = some z := Option.isSome_iff_exists.mp (by simp)
    have here : inside.Within text.toList := ⟨before, whole, begins⟩
    have spelled := exists_spells_of_mem Grammar.local_item repeats here
    have rest : textFrom z.stop text.toList = last.rest := by
      obtain ⟨own, _, own_rest, stop, _⟩ := Grammar.local_item.repeats repeats
      rw [stop_of_repeats repeats final]
      exact (here.advance own_rest stop).textFrom_eq
    cases repeats with
    | more first _ =>
      obtain ⟨gap, isGap, gapRest, offset⟩ :=
        Cursor.exists_gap (Grammar.local_item.rest_ne_nil first)
      have kept : textBefore x.start text.toList = before ++ gap := by
        rw [(Phrase.read_located_iff.mp first).2.1, offset, begins, ← byteLength_append, whole,
          gapRest, ← List.append_assoc, textBefore_append]
      obtain ⟨ys, again, same⟩ :=
        exists_repeats_excerpts (f := fun item => item.value.clause) clause_move
          (fun y member => spelled y (reordered.perm.mem_iff.mp member))
          (byteLength before + byteLength gap) last.rest
      obtain ⟨after, found, skipped⟩ :=
        Phrase.exists_repeats_of_skip (isGap.skip_eq (byteLength before) _) again
      obtain ⟨block', later', read', kind, id, items, others⟩ :=
        replace (gap ++ excerpts text.toList placed) ys after (by rwa [List.append_assoc])
          (by rw [skipped, byteLength_append, Nat.add_assoc])
      refine ⟨block', later', ?_, ⟨kind, id, ?_⟩, others⟩
      · rw [← read', rearranged, List.head?_cons, final]
        simp only [kept, rest, List.append_assoc]
      · exact ⟨_, listed ▸ reordered, items ▸ same⟩

end Format

/-- A file that can be read can still be read when the items of a block change places, as long as
states stay in order, accepting states stay in order, and alphabets and transitions stay in order
together. What it declares stays the same, except for places. -/
theorem Document.parse_rearranged {file : Nat} {text : String} {d : Document}
    {earlier later : List (Located Block)} {block : Located Block}
    {placed : List (Gap × Located Item)} (accepted : parse file text = .ok d)
    (read : readBlocks text = .ok (earlier ++ block :: later))
    (reordered : Reordered (placed.map Prod.snd) block.value.items) :
    ∃ d', parse file (rearranged text block.value.items placed) = .ok d' ∧
      d'.unplaced = d.unplaced := by
  obtain ⟨block', later', readAgain, restates, others⟩ := readBlocks_rearranged read reordered
  rw [parse_of_readBlocks read] at accepted
  rw [parse_of_readBlocks readAgain]
  have all := List.rel_append (forall₂_restates_refl earlier) (.cons restates others)
  exact exists_addBlocks_of_restates all rfl accepted

namespace Sample

def jumbled : String :=
  "constraint c8 \x7binit u; states u;\nu--x->w; // né\naccept w; states w;\x7d"

def jumbledBlock : Located Block :=
  ⟨⟨.constraint, ⟨"c8", 11, 13⟩, [⟨.init ⟨"u", 20, 21⟩, 15, 22⟩,
    ⟨.states [⟨"u", 30, 31⟩], 23, 32⟩,
    ⟨.transition ⟨"u", 33, 34⟩ ⟨"x", 36, 37⟩ ⟨"w", 39, 40⟩, 33, 41⟩,
    ⟨.accept [⟨"w", 56, 57⟩], 49, 58⟩, ⟨.states [⟨"w", 66, 67⟩], 59, 68⟩]⟩, 0, 69⟩

/-- The states first, and the initial state last. -/
def tidied : List (Gap × Located Item) :=
  [([], ⟨.states [⟨"u", 30, 31⟩], 23, 32⟩), ([.space], ⟨.states [⟨"w", 66, 67⟩], 59, 68⟩),
    ([.lineEnd .lineFeed], ⟨.accept [⟨"w", 56, 57⟩], 49, 58⟩),
    ([], ⟨.transition ⟨"u", 33, 34⟩ ⟨"x", 36, 37⟩ ⟨"w", 39, 40⟩, 33, 41⟩),
    ([.tab], ⟨.init ⟨"u", 20, 21⟩, 15, 22⟩)]

def jumbledDocument : Document where
  traces := []
  constraints := [⟨⟨"c8", by decide, by decide⟩, ⟨"c8", ["u", "w"], ["x"], some 0, [1],
    [⟨0, "x", 1⟩], some ⟨0, 69, 0⟩, [some ⟨33, 41, 0⟩]⟩⟩]

end Sample

theorem Document.parse_rearranged_sample :
    rearranged Sample.jumbled Sample.jumbledBlock.value.items Sample.tidied =
      "constraint c8 \x7bstates u; states w;\naccept w;u--x->w;\tinit u;\x7d" ∧
    ∃ d, parse 0 (rearranged Sample.jumbled Sample.jumbledBlock.value.items Sample.tidied) =
      .ok d ∧ d.unplaced = Sample.jumbledDocument.unplaced := by
  have accepted : parse 0 Sample.jumbled = .ok Sample.jumbledDocument :=
    eq_ok_of_toOption (by decide +kernel)
  have read : readBlocks Sample.jumbled = .ok ([] ++ [Sample.jumbledBlock]) :=
    eq_ok_of_toOption (by decide +kernel)
  have reordered : Reordered (Sample.tidied.map Prod.snd) Sample.jumbledBlock.value.items := by
    refine ⟨by decide, fun group ordered => ?_⟩
    cases group with
    | init => exact absurd rfl ordered
    | states | symbols | accept => decide
  exact ⟨by decide +kernel, parse_rearranged accepted read reordered⟩

end AlignPlan
