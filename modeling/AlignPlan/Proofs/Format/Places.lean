import AlignPlan.Proofs.Format.Language
import AlignPlan.Proofs.Format.OwnText

/-! Places in a text. Reading only goes on, so everything that is read off a text, and every
position at which reading is known to have failed, lies between two characters of it; what is read
first ends before what is read next begins. -/
namespace AlignPlan.Format

namespace Cursor

/-- The second position is come to from the first by reading on. -/
def Reaches (c d : Cursor) : Prop :=
  ∃ own, c.rest = own ++ d.rest ∧ d.offset = c.offset + byteLength own

variable {c d e : Cursor}

theorem Reaches.refl (c : Cursor) : c.Reaches c := ⟨[], rfl, rfl⟩

theorem Reaches.trans (first : c.Reaches d) (second : d.Reaches e) : c.Reaches e := by
  obtain ⟨own, rest, offset⟩ := first
  obtain ⟨own', rest', offset'⟩ := second
  refine ⟨own ++ own', by rw [rest, rest', List.append_assoc], ?_⟩
  rw [offset', offset, byteLength_append, Nat.add_assoc]

theorem Reaches.offset_le (h : c.Reaches d) : c.offset ≤ d.offset := by
  obtain ⟨_, _, offset⟩ := h
  omega

theorem length_le_byteLength (text : List Char) : text.length ≤ byteLength text := by
  induction text with
  | nil => exact Nat.le_refl 0
  | cons c text ih =>
    have := c.utf8Size_pos
    rw [List.length_cons, byteLength]
    omega

/-- Where the text gets shorter, some bytes are behind. -/
theorem Reaches.offset_lt (h : c.Reaches d) (shorter : d.rest.length < c.rest.length) :
    c.offset < d.offset := by
  obtain ⟨own, rest, offset⟩ := h
  have := length_le_byteLength own
  rw [rest, List.length_append] at shorter
  omega

theorem suffix_skipFrom (inComment : Bool) (offset : Nat) (text : List Char) :
    (skipFrom inComment offset text).rest <:+ text := by
  fun_induction skipFrom inComment offset text with
  | case1 => exact List.suffix_rfl
  | case2 _ _ _ _ _ ih => exact ih.trans (List.suffix_cons _ _)
  | case3 _ _ _ _ ih => exact ih.trans (List.suffix_cons _ _)
  | case4 _ _ _ _ _ _ _ ih => exact ih.trans (List.suffix_cons _ _)
  | case5 _ _ _ _ _ _ ih => exact (ih.trans (List.suffix_cons _ _)).trans (List.suffix_cons _ _)
  | case6 => exact List.suffix_rfl

theorem reaches_skip (c : Cursor) : c.Reaches c.skip := by
  obtain ⟨own, whole⟩ := suffix_skipFrom false c.offset c.rest
  have bytes := byteLength_skipFrom false c.offset c.rest
  have lengths := congrArg byteLength whole
  rw [byteLength_append] at lengths
  refine ⟨own, whole.symm, ?_⟩
  change (skipFrom false c.offset c.rest).offset = _
  omega

theorem reaches_of_drop? {text : List Char} (h : c.drop? text = some d) : c.Reaches d := by
  have whole := rest_of_drop? h
  have again := drop?_append_eq c.offset text d.rest
  rw [← whole, show (⟨c.offset, c.rest⟩ : Cursor) = c from rfl, h] at again
  exact ⟨text, whole, congrArg offset (Option.some.inj again)⟩

/-- A place that begins and ends on the way from one position to another. -/
def Between (c d : Cursor) (place : Nat × Nat) : Prop :=
  ∃ first last, c.Reaches first ∧ first.Reaches last ∧ last.Reaches d ∧
    place = (first.offset, last.offset)

variable {place : Nat × Nat}

theorem Between.widen {c' d' : Cursor} (h : Between c d place) (before : c'.Reaches c)
    (after : d.Reaches d') : Between c' d' place := by
  obtain ⟨first, last, start, inner, stop, same⟩ := h
  exact ⟨first, last, before.trans start, inner, stop.trans after, same⟩

end Cursor

/-- Where a failure may have been noted on the way from a position, besides those known before. -/
def Trail.GoesOn (c : Cursor) (before after : Trail) : Prop :=
  after.offset = before.offset ∨ ∃ d, c.Reaches d ∧ after.offset = d.offset

namespace Trail

variable {c d : Cursor} {t before after : Trail}

theorem GoesOn.refl (c : Cursor) (t : Trail) : t.GoesOn c t := .inl rfl

theorem GoesOn.trans (first : t.GoesOn c before) (second : before.GoesOn c after) :
    t.GoesOn c after := by
  rcases second with same | reached
  · exact first.imp same.trans fun ⟨d, reached, offset⟩ => ⟨d, reached, same.trans offset⟩
  · exact .inr reached

theorem GoesOn.from (reached : c.Reaches d) (h : t.GoesOn d after) : t.GoesOn c after :=
  h.imp_right fun ⟨e, further, offset⟩ => ⟨e, reached.trans further, offset⟩

theorem GoesOn.settle (h : before.GoesOn c after) (symbol : Symbol) :
    before.GoesOn c (before.settle after c.offset symbol) := by
  have here : before.GoesOn c ⟨c.offset, after.symbols.take (before.count c.offset) ++ [symbol]⟩ :=
    .inr ⟨c, .refl c, rfl⟩
  have only : before.GoesOn c ⟨c.offset, [symbol]⟩ := .inr ⟨c, .refl c, rfl⟩
  unfold Trail.settle
  extract_lets earlier
  split
  · exact h
  split
  · exact h
  split
  · exact here
  · exact only

end Trail

/-- Values that know where in a text they and their parts have been read. -/
class Placed (α : Type) where
  places : α → List (Nat × Nat)

export Placed (places)

section Values

variable {α β : Type} [Placed α] [Placed β]

instance : Placed Unit := ⟨fun _ => []⟩

instance : Placed String := ⟨fun _ => []⟩

instance : Placed (List α) := ⟨fun xs => xs.flatMap places⟩

instance : Placed (α × β) := ⟨fun x => places x.1 ++ places x.2⟩

instance : Placed (Located α) := ⟨fun x => (x.start, x.stop) :: places x.value⟩

instance : Placed Item := ⟨fun item => places item.tokens⟩

instance : Placed Block := ⟨fun b => places b.id ++ places b.items⟩

end Values

namespace Phrase

variable {α β : Type} [Placed α] [Placed β]

/-- What is read, and where reading fails, is never left of where it began, nor is anything that
is read right of where it ends. -/
structure Bounded (p : Phrase α) : Prop where
  read : ∀ c x c', p.read c = some (x, c') →
    c.Reaches c' ∧ ∀ place ∈ places x, c.Between c' place
  trail : ∀ (c : Cursor) (t : Trail), t.GoesOn c (p.trail c t)

theorem bounded_here : here.Bounded where
  read c x c' h := by
    cases h
    exact ⟨.refl c, List.forall_mem_nil _⟩
  trail c t := .refl c t

theorem bounded_literal (text : String) : (literal text).Bounded where
  read c x c' h := by
    obtain ⟨after, dropped, same⟩ := Option.map_eq_some_iff.mp h
    cases same
    exact ⟨Cursor.reaches_of_drop? dropped, List.forall_mem_nil _⟩
  trail c t := .refl c t

theorem bounded_atom {symbol : Symbol} {read : Cursor → Option (α × Cursor)}
    (shrinks : ∀ {c x c'}, read c = some (x, c') → c'.rest.length ≤ c.rest.length)
    (h : ∀ c x c', read c = some (x, c') →
      c.Reaches c' ∧ ∀ place ∈ places x, c.Between c' place) :
    (atom symbol read shrinks).Bounded where
  read := h
  trail c t := by
    simp only [atom]
    split
    · exact .refl c t
    · exact (Trail.GoesOn.refl c t).settle symbol

theorem Bounded.named {p : Phrase α} (h : p.Bounded) (symbol : Symbol) :
    (named symbol p).Bounded where
  read := h.read
  trail c t := by
    simp only [Phrase.named]
    split
    · exact h.trail c t
    · exact (h.trail c t).settle symbol

theorem Bounded.map {p : Phrase α} (h : p.Bounded) (f : α → β)
    (kept : ∀ x, places (f x) ⊆ places x) : (p.map f).Bounded where
  read c y c' mapped := by
    obtain ⟨⟨x, after⟩, found, same⟩ := Option.map_eq_some_iff.mp mapped
    cases same
    obtain ⟨reached, inside⟩ := h.read c x c' found
    exact ⟨reached, fun place member => inside place (kept x member)⟩
  trail := h.trail

theorem Bounded.located {p : Phrase α} (h : p.Bounded) : p.located.Bounded where
  read c y c' mapped := by
    obtain ⟨⟨x, after⟩, found, same⟩ := Option.map_eq_some_iff.mp mapped
    cases same
    obtain ⟨reached, inside⟩ := h.read c x c' found
    refine ⟨reached, List.forall_mem_cons.mpr ⟨?_, inside⟩⟩
    exact ⟨c, c', .refl c, reached, .refl c', rfl⟩
  trail := h.trail

theorem Bounded.andThen {p : Phrase α} {q : Phrase β} (hp : p.Bounded) (hq : q.Bounded) :
    (p.andThen q).Bounded where
  read c xy c' found := by
    obtain ⟨between, first, second⟩ := readThen_eq_some.mp found
    obtain ⟨begun, early⟩ := hp.read _ _ _ first
    obtain ⟨ended, late⟩ := hq.read _ _ _ second
    have passed := between.reaches_skip
    refine ⟨begun.trans (passed.trans ended), List.forall_mem_append.mpr ⟨?_, ?_⟩⟩
    · exact fun place member => (early place member).widen (.refl c) (passed.trans ended)
    · exact fun place member => (late place member).widen (begun.trans passed) (.refl c')
  trail c t := by
    have first := hp.trail c t
    simp only [Phrase.andThen]
    split
    next => exact first
    next x between found =>
      have begun := (hp.read _ _ _ found).1
      exact first.trans ((hq.trail between.skip _).from (begun.trans between.reaches_skip))

theorem Bounded.before {p : Phrase Unit} {q : Phrase α} (hp : p.Bounded) (hq : q.Bounded) :
    (p.before q).Bounded :=
  (hp.andThen hq).map _ fun _ => List.subset_append_right _ _

theorem Bounded.closedBy {p : Phrase α} {q : Phrase Unit} (hp : p.Bounded) (hq : q.Bounded) :
    (p.closedBy q).Bounded :=
  (hp.andThen hq).map _ fun _ => List.subset_append_left _ _

theorem Bounded.orElse {p q : Phrase α} (hp : p.Bounded) (hq : q.Bounded) :
    (p.orElse q).Bounded where
  read c x c' h := by
    rcases Option.or_eq_some_iff.mp h with found | ⟨_, found⟩
    · exact hp.read c x c' found
    · exact hq.read c x c' found
  trail c t := by
    simp only [Phrase.orElse]
    split
    · exact hp.trail c t
    · exact (hp.trail c t).trans (hq.trail c _)

theorem Bounded.repeats {p : Phrase α} {xs : List α} {c c' : Cursor} (h : p.Bounded)
    (repeats : p.Repeats c xs c') : c.Reaches c' ∧ ∀ place ∈ places xs, c.Between c' place := by
  induction repeats with
  | done c => exact ⟨.refl c, List.forall_mem_nil _⟩
  | @more c next c' x xs first _ ih =>
    obtain ⟨begun, early⟩ := h.read _ _ _ first
    obtain ⟨ended, late⟩ := ih
    have passed := c.reaches_skip
    refine ⟨passed.trans (begun.trans ended), List.forall_mem_append.mpr ⟨?_, ?_⟩⟩
    · exact fun place member => (early place member).widen passed ended
    · exact fun place member => (late place member).widen (passed.trans begun) (.refl c')

theorem Bounded.trailMore {p : Phrase α} (h : p.Bounded) (consumes : p.Consumes) (c : Cursor)
    (t : Trail) : t.GoesOn c (p.trailMore consumes c t) := by
  fun_induction Phrase.trailMore p consumes c t with
  | case1 c t later missing => exact (h.trail c.skip t).from c.reaches_skip
  | case2 c t later x next found ih =>
    have begun := c.reaches_skip.trans (h.read _ _ _ found).1
    exact ((h.trail c.skip t).from c.reaches_skip).trans (ih.from begun)

theorem Bounded.many {p : Phrase α} (h : p.Bounded) (consumes : p.Consumes) :
    (p.many consumes).Bounded where
  read c xs c' found := by
    simp only [Phrase.many] at found
    split at found
    next =>
      cases found
      exact ⟨.refl c, List.forall_mem_nil _⟩
    next x next first =>
      cases found
      obtain ⟨begun, early⟩ := h.read _ _ _ first
      obtain ⟨ended, late⟩ := h.repeats (repeats_readMore consumes next).1
      refine ⟨begun.trans ended, List.forall_mem_append.mpr ⟨?_, ?_⟩⟩
      · exact fun place member => (early place member).widen (.refl c) ended
      · exact fun place member => (late place member).widen begun (.refl _)
  trail c t := by
    have first := h.trail c t
    simp only [Phrase.many]
    split
    next => exact first
    next x next found =>
      exact first.trans ((h.trailMore consumes next _).from (h.read _ _ _ found).1)

/-- What is read knows where it has been read. -/
def Locates (p : Phrase (Located α)) : Prop :=
  ∀ c x c', p.read c = some (x, c') → x.start = c.offset ∧ x.stop = c'.offset

omit [Placed α] in
theorem locates_located (p : Phrase α) : p.located.Locates :=
  fun _ _ _ found => (read_located_iff.mp found).2

omit [Placed α] in
theorem Locates.orElse {p q : Phrase (Located α)} (hp : p.Locates) (hq : q.Locates) :
    (p.orElse q).Locates := by
  intro c x c' h
  rcases Option.or_eq_some_iff.mp h with found | ⟨_, found⟩
  · exact hp c x c' found
  · exact hq c x c' found

section Order

variable {p : Phrase (Located α)} {xs : List (Located α)} {c c' : Cursor}

/-- What is read again and again stands in the text in this order and apart. -/
theorem ordered_of_repeats (bounded : p.Bounded) (consumes : p.Consumes) (locates : p.Locates)
    (repeats : p.Repeats c xs c') :
    (∀ x ∈ xs, c.offset ≤ x.start ∧ x.start < x.stop ∧ x.stop ≤ c'.offset) ∧
      xs.Pairwise fun x y => x.stop ≤ y.start := by
  induction repeats with
  | done => exact ⟨List.forall_mem_nil _, .nil⟩
  | @more c next c' x xs first others ih =>
    obtain ⟨inside, apart⟩ := ih
    obtain ⟨start, stop⟩ := locates _ _ _ first
    have passed := c.reaches_skip.offset_le
    have nonempty := (bounded.read _ _ _ first).1.offset_lt (consumes _ _ _ first)
    have further := (bounded.repeats others).1.offset_le
    constructor
    · rw [List.forall_mem_cons]
      refine ⟨by omega, fun y member => ?_⟩
      have := inside y member
      omega
    · refine List.pairwise_cons.mpr ⟨fun y member => ?_, apart⟩
      have := inside y member
      omega

omit [Placed α] in
/-- What is read off a text is read off a part of it, as it would be if this was all. -/
theorem exists_own_of_repeats [Movable α] (h : p.Local .nothing) (locates : p.Locates)
    (repeats : p.Repeats c xs c') : ∀ x ∈ xs, ∃ before own after y,
      c.rest = before ++ own ++ after ∧ x.start = c.offset + byteLength before ∧
      x.stop = x.start + byteLength own ∧ x = move x.start y ∧ p.Spells .nothing own y after := by
  induction repeats with
  | done => exact List.forall_mem_nil _
  | @more c next c' x xs first _ ih =>
    obtain ⟨start, stop⟩ := locates _ _ _ first
    obtain ⟨gap, gapRest, passed⟩ := c.reaches_skip
    obtain ⟨own, y, whole, same, spelled⟩ := h c.skip x next c.skip_skip first
    have ended := spelled.offset_eq whole first
    rw [List.forall_mem_cons]
    constructor
    · refine ⟨gap, own, next.rest, y, ?_, start.trans passed, ?_, ?_, spelled⟩
      · rw [gapRest, whole, List.append_assoc]
      · rw [stop, ended, start]
      · rw [start]
        exact same
    · intro z member
      obtain ⟨before, own', after, w, rest, first', last', moved, spelled'⟩ := ih z member
      refine ⟨gap ++ own ++ before, own', after, w, ?_, ?_, last', moved, spelled'⟩
      · rw [gapRest, whole, rest]
        simp only [List.append_assoc]
      · rw [first', ended, passed]
        simp only [byteLength_append, Nat.add_assoc]

omit [Placed α] in
theorem exists_read_of_mem {x : Located α} (repeats : p.Repeats c xs c') (member : x ∈ xs) :
    ∃ d d', p.read d = some (x, d') := by
  induction repeats with
  | done => cases member
  | more first _ ih =>
    rcases List.mem_cons.mp member with rfl | later
    · exact ⟨_, _, first⟩
    · exact ih later

end Order

end Phrase

namespace Grammar

open Phrase

theorem bounded_word (symbol : Symbol) (continues : Char → List Char → Bool) :
    (word symbol continues).Bounded := by
  refine bounded_atom (word symbol continues).shrinks fun c token c' found => ?_
  obtain ⟨text, _, whole, _, rfl, stop⟩ := readWord_eq_some_iff.mp found
  have reached : c.Reaches c' := ⟨text, whole, stop⟩
  exact ⟨reached, List.forall_mem_singleton.mpr ⟨c, c', .refl c, reached, .refl c',
    by rw [stop]⟩⟩

theorem bounded_keyword (symbol : Symbol) (text : String) : (keyword symbol text).Bounded := by
  refine bounded_atom (keyword symbol text).shrinks fun c u c' found => ?_
  have dropped := (readKeyword_eq_some_iff.mp found).1
  exact ⟨Cursor.reaches_of_drop? dropped, List.forall_mem_nil _⟩

theorem bounded_endOfInput : endOfInput.Bounded := by
  refine bounded_atom endOfInput.shrinks fun c u c' found => ?_
  obtain ⟨rfl, _⟩ := readEnd_eq_some_iff.mp found
  exact ⟨.refl c', List.forall_mem_nil _⟩

theorem bounded_name : name.Bounded := bounded_word _ _

theorem bounded_names : names.Bounded := (bounded_name.many _).closedBy (bounded_literal _)

theorem bounded_item : item.Bounded := by
  have one := bounded_name.closedBy (bounded_literal ";")
  have states : states.Bounded :=
    (((bounded_keyword _ _).before bounded_names).map Item.states fun _ _ member => member).named _
  have alphabet : alphabet.Bounded :=
    (((bounded_keyword _ _).before bounded_names).map Item.alphabet fun _ _ member => member).named _
  have init : init.Bounded :=
    (((bounded_keyword _ _).before one).map Item.init fun _ => by simp [places, Item.tokens]).named _
  have accept : accept.Bounded :=
    (((bounded_keyword _ _).before bounded_names).map Item.accept fun _ _ member => member).named _
  have arrow := (bounded_literal "->").before one
  have transition : transition.Bounded :=
    ((bounded_name.andThen ((bounded_literal "--").before (bounded_name.andThen arrow))).map _
      fun _ => by simp [places, Item.tokens]).named _
  exact (states.orElse (alphabet.orElse (init.orElse (accept.orElse transition)))).located

theorem bounded_block (kind : BlockKind) (symbol : Symbol) (text : String) {id : Phrase Token}
    (hid : id.Bounded) : (block kind symbol text id).Bounded := by
  have body : body.Bounded :=
    (bounded_literal _).before ((bounded_item.many _).closedBy (bounded_literal _))
  have whole := (bounded_literal text).before (hid.andThen body)
  exact ((whole.map (fun part => (⟨kind, part.1, part.2⟩ : Block))
    fun _ _ member => member).named symbol).located

theorem bounded_anyBlock : anyBlock.Bounded :=
  (bounded_block _ _ _ (bounded_word _ _)).orElse (bounded_block _ _ _ (bounded_word _ _))

theorem locates_anyBlock : anyBlock.Locates := (locates_located _).orElse (locates_located _)

/-- The items of a block stand between its brackets. -/
theorem exists_items_of_block {c c' : Cursor} {b : Located Block}
    (found : anyBlock.read c = some (b, c')) : ∃ inside after, c.offset < inside.offset ∧
      item.Repeats inside b.value.items after ∧ after.offset < c'.offset := by
  have ends {kind : BlockKind} {symbol : Symbol} {text : String} {id : Phrase Token}
      (nonempty : text.toList ≠ []) (hid : id.Bounded)
      (found : (block kind symbol text id).read c = some (b, c')) :
      ∃ inside after, c.offset < inside.offset ∧ item.Repeats inside b.value.items after ∧
        after.offset < c'.offset := by
    obtain ⟨token, inside, after, opened, repeats, closed, _⟩ := read_block_iff.mp found
    have consumes : (opening text id).Consumes := (consumes_literal nonempty).before _
    have bounded : (opening text id).Bounded :=
      (bounded_literal text).before (hid.closedBy (bounded_literal _))
    have begun := (bounded.read _ _ _ opened).1.offset_lt (consumes _ _ _ opened)
    have bracket : (literal "\x7d").Consumes := consumes_literal (by decide)
    have ended := ((bounded_literal _).read _ _ _ closed).1.offset_lt (bracket _ _ _ closed)
    have passed := after.reaches_skip.offset_le
    exact ⟨inside, after, begun, repeats, by omega⟩
  rcases Option.or_eq_some_iff.mp found with first | ⟨_, second⟩
  · exact ends (by decide) (bounded_word _ _) first
  · exact ends (by decide) (bounded_word _ _) second

theorem bounded_file : file.Bounded :=
  (bounded_here.before ((bounded_anyBlock.many _).closedBy bounded_endOfInput)).named _

end Grammar

end AlignPlan.Format
