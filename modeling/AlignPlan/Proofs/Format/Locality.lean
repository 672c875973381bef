import AlignPlan.Proofs.Format.Moving
import AlignPlan.Proofs.Format.Reading

/-! What a phrase reads depends on little more than the text it reads. A phrase that ends in a
fixed text is read alike wherever its text stands and whatever follows; a word has to know how the
text goes on. Choices between phrases that never read at one place, and repetitions up to a text
that cannot be one more, keep this. -/
namespace AlignPlan.Format

/-- How much of the text that follows a phrase looks at. -/
inductive Sight
  | nothing | opening

/-- Texts that are the same to a phrase that has been read just before them. Whether a dash goes
on with a word is up to the character after it. -/
def Sight.Same : Sight → List Char → List Char → Prop
  | .nothing, _, _ => True
  | .opening, a, b => a.head? = b.head? ∧ (a.head? = some '-' → a.tail.head? = b.tail.head?)

theorem Sight.same_refl (s : Sight) (text : List Char) : s.Same text text := by
  cases s with
  | nothing => trivial
  | opening => exact ⟨rfl, fun _ => rfl⟩

theorem Sight.Same.append {s : Sight} {a b : List Char} (h : s.Same a b) (text : List Char) :
    s.Same (text ++ a) (text ++ b) := by
  cases s with
  | nothing => trivial
  | opening =>
    match text with
    | [] => exact h
    | [_] => exact ⟨rfl, fun _ => h.1⟩
    | _ :: _ :: _ => exact ⟨rfl, fun _ => rfl⟩

namespace Phrase

section Apart

variable {α β : Type} {p q : Phrase α} {r : Phrase β}

/-- No text begins with both. -/
def Apart (p : Phrase α) (q : Phrase β) : Prop := ∀ c, p.read c = none ∨ q.read c = none

theorem apart_of_read (h : ∀ c x c', r.read c = some (x, c') → p.read c = none) : p.Apart r := by
  intro c
  cases second : r.read c with
  | none => exact .inr rfl
  | some found => exact .inl (h c found.1 found.2 second)

theorem Apart.symm (h : p.Apart r) : r.Apart p := fun c => (h c).symm

theorem Apart.named (h : p.Apart r) (symbol : Symbol) : (named symbol p).Apart r := h

theorem Apart.map {γ : Type} (h : p.Apart r) (f : α → γ) : (p.map f).Apart r :=
  fun c => (h c).imp_left fun refused => by simp only [Phrase.map, refused, Option.map_none]

theorem Apart.located (h : p.Apart r) : p.located.Apart r :=
  fun c => (h c).imp_left fun refused => by simp only [Phrase.located, refused, Option.map_none]

theorem Apart.andThen {γ : Type} (h : p.Apart r) (later : Phrase γ) : (p.andThen later).Apart r :=
  fun c => (h c).imp_left fun refused => by simp only [Phrase.andThen, readThen, refused]

theorem Apart.orElse (hp : p.Apart r) (hq : q.Apart r) : (p.orElse q).Apart r := by
  intro c
  rcases hp c with first | found
  · exact (hq c).imp_left fun second => Option.or_eq_none_iff.mpr ⟨first, second⟩
  · exact .inr found

theorem Apart.orElse_right (hp : r.Apart p) (hq : r.Apart q) : r.Apart (p.orElse q) :=
  (hp.symm.orElse hq.symm).symm

end Apart

section Repetition

variable {α : Type} {p : Phrase α} {xs ys : List α} {c c' : Cursor}

/-- The phrase is read again and again from `c` to `c'`, and perhaps could be read once more. -/
inductive Repeats (p : Phrase α) : Cursor → List α → Cursor → Prop
  | done (c : Cursor) : Repeats p c [] c
  | more {c next c' : Cursor} {x : α} {xs : List α} (first : p.read c.skip = some (x, next))
      (others : Repeats p next xs c') : Repeats p c (x :: xs) c'

theorem Repeats.append {between : Cursor} (first : p.Repeats c xs between)
    (second : p.Repeats between ys c') : p.Repeats c (xs ++ ys) c' := by
  induction first with
  | done => exact second
  | more found _ ih => exact .more found (ih second)

/-- Only where nothing is read does it show that a gap has been passed over. -/
theorem exists_repeats_of_skip {d : Cursor} (same : d.skip = c.skip) (h : p.Repeats c xs c') :
    ∃ d', p.Repeats d xs d' ∧ d'.skip = c'.skip := by
  cases h with
  | done => exact ⟨d, .done d, same⟩
  | more first others => exact ⟨c', .more (same ▸ first) others, rfl⟩

theorem exists_repeats_append (h : p.Repeats c (xs ++ ys) c') :
    ∃ between, p.Repeats c xs between ∧ p.Repeats between ys c' := by
  induction xs generalizing c with
  | nil => exact ⟨c, .done c, h⟩
  | cons x xs ih =>
    cases h with
    | more first others =>
      obtain ⟨between, before, after⟩ := ih others
      exact ⟨between, .more first before, after⟩

theorem repeats_readMore (consumes : p.Consumes) (c : Cursor) :
    p.Repeats c (p.readMore consumes c).1 (p.readMore consumes c).2 ∧
      p.read (p.readMore consumes c).2.skip = none := by
  fun_induction readMore p consumes c with
  | case1 c missing => exact ⟨.done c, missing⟩
  | case2 c x next found xs after more ih =>
    rw [more] at ih
    exact ⟨.more found ih.1, ih.2⟩

theorem Repeats.readMore_eq (consumes : p.Consumes) (h : p.Repeats c xs c') :
    p.readMore consumes c =
      (xs ++ (p.readMore consumes c').1, (p.readMore consumes c').2) := by
  induction h with
  | done => rfl
  | more first _ ih => rw [readMore.eq_def, first]; simp only [ih, List.cons_append]

theorem readMore_eq_iff (consumes : p.Consumes) : p.readMore consumes c = (xs, c') ↔
    p.Repeats c xs c' ∧ p.read c'.skip = none := by
  constructor
  · intro h
    have both := repeats_readMore consumes c
    rwa [h] at both
  · rintro ⟨repeats, missing⟩
    rw [repeats.readMore_eq consumes, readMore.eq_def p consumes c', missing, List.append_nil]

theorem read_many (consumes : p.Consumes) (still : c.skip = c) :
    (p.many consumes).read c = some (p.readMore consumes c) := by
  rw [readMore.eq_def, still]
  simp only [many]
  cases p.read c with
  | none => rfl
  | some found => rfl

theorem read_named (symbol : Symbol) (p : Phrase α) : (named symbol p).read = p.read := rfl

theorem read_map_iff {β : Type} {f : α → β} {y : β} : (p.map f).read c = some (y, c') ↔
    ∃ x, p.read c = some (x, c') ∧ f x = y := by
  simp only [Phrase.map, Option.map_eq_some_iff, Prod.exists, Prod.mk.injEq]
  constructor
  · rintro ⟨x, after, found, same, rfl⟩
    exact ⟨x, found, same⟩
  · rintro ⟨x, found, same⟩
    exact ⟨x, c', found, same, rfl⟩

theorem read_closedBy_iff {q : Phrase Unit} {x : α} : (p.closedBy q).read c = some (x, c') ↔
    ∃ between, p.read c = some (x, between) ∧ q.read between.skip = some ((), c') := by
  rw [closedBy, read_map_iff]
  constructor
  · rintro ⟨⟨y, u⟩, found, rfl⟩
    exact readThen_eq_some.mp found
  · rintro ⟨between, first, second⟩
    exact ⟨(x, ()), readThen_eq_some.mpr ⟨between, first, second⟩, rfl⟩

theorem read_before_iff {q : Phrase Unit} {x : α} : (q.before p).read c = some (x, c') ↔
    ∃ between, q.read c = some ((), between) ∧ p.read between.skip = some (x, c') := by
  rw [before, read_map_iff]
  constructor
  · rintro ⟨⟨u, y⟩, found, rfl⟩
    exact readThen_eq_some.mp found
  · rintro ⟨between, first, second⟩
    exact ⟨((), x), readThen_eq_some.mpr ⟨between, first, second⟩, rfl⟩

theorem read_located_iff {x : Located α} : p.located.read c = some (x, c') ↔
    p.read c = some (x.value, c') ∧ x.start = c.offset ∧ x.stop = c'.offset := by
  obtain ⟨value, start, stop⟩ := x
  simp only [Phrase.located, Option.map_eq_some_iff, Prod.exists, Prod.mk.injEq, Located.mk.injEq]
  constructor
  · rintro ⟨y, after, found, ⟨rfl, rfl, rfl⟩, rfl⟩
    exact ⟨found, rfl, rfl⟩
  · rintro ⟨found, rfl, rfl⟩
    exact ⟨value, c', found, ⟨rfl, rfl, rfl⟩, rfl⟩

/-- A repetition and something it cannot go on with. -/
theorem read_many_closedBy (consumes : p.Consumes) {q : Phrase Unit} (apart : p.Apart q) :
    ((p.many consumes).closedBy q).read c.skip = some (xs, c') ↔
      ∃ after, p.Repeats c xs after ∧ q.read after.skip = some ((), c') := by
  simp only [read_closedBy_iff, read_many consumes c.skip_skip, Option.some.injEq, readMore_eq_iff]
  constructor
  · rintro ⟨after, ⟨repeats, _⟩, closed⟩
    obtain ⟨after', repeats', same⟩ := exists_repeats_of_skip c.skip_skip.symm repeats
    exact ⟨after', repeats', same ▸ closed⟩
  · rintro ⟨after, repeats, closed⟩
    obtain ⟨after', repeats', same⟩ := exists_repeats_of_skip c.skip_skip repeats
    rw [← same] at closed
    exact ⟨after', ⟨repeats', (apart _).resolve_right (by simp [closed])⟩, closed⟩

end Repetition

/-- Where a text has been read, its bytes are behind. -/
theorem offset_of_read {α : Type} (read : Cursor → Option (α × Cursor)) {text : List Char}
    {c c' : Cursor} {x y : α} (again : read ⟨c.offset, text ++ c'.rest⟩ =
      some (y, ⟨c.offset + byteLength text, c'.rest⟩))
    (whole : c.rest = text ++ c'.rest) (found : read c = some (x, c')) :
    c'.offset = c.offset + byteLength text := by
  rw [← whole, show (⟨c.offset, c.rest⟩ : Cursor) = c from rfl, found] at again
  exact congrArg Cursor.offset (Prod.mk.inj (Option.some.inj again)).2

variable {α β : Type} [Movable α] [Movable β] {s : Sight}

/-- A text that is read as `x` in any place and before any text that looks like `rest`. The places
in `x` count from where the text begins. -/
structure Spells (s : Sight) (p : Phrase α) (text : List Char) (x : α) (rest : List Char) :
    Prop where
  solid : Solid text
  covers : ∀ a b, s.Same a b → Sight.opening.Same (text ++ a) (text ++ b)
  read : ∀ offset rest', s.Same rest' rest →
    p.read ⟨offset, text ++ rest'⟩ = some (move offset x, ⟨offset + byteLength text, rest'⟩)

/-- Where nothing is left to skip, the phrase depends on the text it reads and on no more of what
follows than it can see. -/
def Local (s : Sight) (p : Phrase α) : Prop :=
  ∀ c x c', c.skip = c → p.read c = some (x, c') →
    ∃ text y, c.rest = text ++ c'.rest ∧ x = move c.offset y ∧ p.Spells s text y c'.rest

theorem Spells.offset_eq {p : Phrase α} {text : List Char} {c c' : Cursor} {x y : α}
    (spelled : p.Spells s text y c'.rest) (whole : c.rest = text ++ c'.rest)
    (found : p.read c = some (x, c')) : c'.offset = c.offset + byteLength text :=
  offset_of_read p.read (spelled.read c.offset c'.rest (s.same_refl _)) whole found

theorem Local.widen {p : Phrase α} (h : p.Local .nothing) : p.Local .opening := by
  intro c x c' still found
  obtain ⟨text, y, whole, same, spelled⟩ := h c x c' still found
  exact ⟨text, y, whole, same, spelled.solid, fun a b _ => spelled.covers a b trivial,
    fun offset rest' _ => spelled.read offset rest' trivial⟩

theorem Local.named {p : Phrase α} (h : p.Local s) (symbol : Symbol) :
    (named symbol p).Local s := by
  intro c x c' still found
  obtain ⟨text, y, whole, same, spelled⟩ := h c x c' still found
  exact ⟨text, y, whole, same, spelled.solid, spelled.covers, spelled.read⟩

theorem Local.map {p : Phrase α} (h : p.Local s) {f : α → β}
    (places : ∀ n x, f (move n x) = move n (f x)) : (p.map f).Local s := by
  intro c z c' still mapped
  obtain ⟨⟨x, after⟩, found, same⟩ := Option.map_eq_some_iff.mp mapped
  cases same
  obtain ⟨text, y, whole, rfl, spelled⟩ := h c x c' still found
  refine ⟨text, f y, whole, places _ _, spelled.solid, spelled.covers, ?_⟩
  intro offset rest' alike
  rw [← places]
  exact Option.map_eq_some_iff.mpr ⟨_, spelled.read offset rest' alike, rfl⟩

theorem Local.located {p : Phrase α} (h : p.Local s) : p.located.Local s := by
  intro c z c' still mapped
  obtain ⟨⟨x, after⟩, found, same⟩ := Option.map_eq_some_iff.mp mapped
  cases same
  obtain ⟨text, y, whole, rfl, spelled⟩ := h c x c' still found
  have stop := spelled.offset_eq whole found
  refine ⟨text, ⟨y, 0, byteLength text⟩, whole, ?_, spelled.solid, spelled.covers, ?_⟩
  · rw [stop]
    rfl
  · intro offset rest' alike
    exact Option.map_eq_some_iff.mpr ⟨_, spelled.read offset rest' alike, rfl⟩

theorem Local.orElse {p q : Phrase α} (hp : p.Local s) (hq : q.Local s) (apart : p.Apart q) :
    (p.orElse q).Local s := by
  intro c x c' still h
  rcases Option.or_eq_some_iff.mp h with found | ⟨_, found⟩
  · obtain ⟨text, y, whole, same, spelled⟩ := hp c x c' still found
    refine ⟨text, y, whole, same, spelled.solid, spelled.covers, ?_⟩
    intro offset rest' alike
    exact Option.or_eq_some_iff.mpr (.inl (spelled.read offset rest' alike))
  · obtain ⟨text, y, whole, same, spelled⟩ := hq c x c' still found
    refine ⟨text, y, whole, same, spelled.solid, spelled.covers, ?_⟩
    intro offset rest' alike
    have second := spelled.read offset rest' alike
    have refused := (apart ⟨offset, text ++ rest'⟩).resolve_right (by simp [second])
    exact Option.or_eq_some_iff.mpr (.inr ⟨refused, second⟩)

/-- A text that is read as `x` once a gap at its beginning has been passed over, in any place and
before any text that looks like `rest`. -/
structure Resumes (s : Sight) (p : Phrase α) (text : List Char) (x : α) (rest : List Char) :
    Prop where
  covers : ∀ a b, s.Same a b → Sight.opening.Same (text ++ a) (text ++ b)
  read : ∀ offset rest', s.Same rest' rest → p.read (⟨offset, text ++ rest'⟩ : Cursor).skip =
    some (move offset x, ⟨offset + byteLength text, rest'⟩)

theorem Local.rest_ne_nil {p : Phrase α} (h : p.Local s) {c c' : Cursor} {x : α}
    (found : p.read c.skip = some (x, c')) : c.skip.rest ≠ [] := by
  obtain ⟨text, _, whole, _, spelled⟩ := h c.skip x c' c.skip_skip found
  rw [whole]
  exact (spelled.solid.append _).ne_nil

theorem Local.resumes {p : Phrase α} (h : p.Local s) {c c' : Cursor} {x : α}
    (found : p.read c.skip = some (x, c')) : ∃ text y, c.rest = text ++ c'.rest ∧
      x = move c.offset y ∧ (c.skip = c → Solid text) ∧ p.Resumes s text y c'.rest := by
  obtain ⟨text, y, whole, same, spelled⟩ := h c.skip x c' c.skip_skip found
  obtain ⟨gap, isGap, rest, offset⟩ := Cursor.exists_gap (h.rest_ne_nil found)
  refine ⟨gap ++ text, move (byteLength gap) y, ?_, ?_, ?_, ?_, ?_⟩
  · rw [rest, whole, List.append_assoc]
  · rw [same, offset, move_add]
  · intro still
    rw [Cursor.gap_eq_nil still offset]
    exact spelled.solid
  · intro a b alike
    simpa using (spelled.covers a b alike).append gap
  · intro offset' rest' alike
    have again := spelled.read (offset' + byteLength gap) rest' alike
    rw [← Cursor.skip_gap isGap spelled.solid] at again
    simpa only [List.append_assoc, byteLength_append, Nat.add_assoc, move_add] using again

theorem Resumes.offset_eq {p : Phrase α} {text : List Char} {c c' : Cursor} {x y : α}
    (resumed : p.Resumes s text y c'.rest) (whole : c.rest = text ++ c'.rest)
    (found : p.read c.skip = some (x, c')) : c'.offset = c.offset + byteLength text :=
  offset_of_read (fun d => p.read d.skip) (resumed.read c.offset c'.rest (s.same_refl _)) whole
    found

theorem Local.andThen {p : Phrase α} {q : Phrase β} (hp : p.Local .opening) (hq : q.Local s) :
    (p.andThen q).Local s := by
  intro c xy c' still h
  obtain ⟨between, first, second⟩ := readThen_eq_some.mp h
  obtain ⟨text, x, here, sameFirst, spelled⟩ := hp c _ between still first
  obtain ⟨later, y, there, sameSecond, _, resumed⟩ := hq.resumes second
  refine ⟨text ++ later, (x, move (byteLength text) y), ?_, ?_, spelled.solid.append _, ?_, ?_⟩
  · rw [here, there, List.append_assoc]
  · refine Prod.ext sameFirst (sameSecond.trans ?_)
    rw [spelled.offset_eq here first, move_add]
    rfl
  · intro a b alike
    simpa using (resumed.covers a b alike).append text
  · intro offset rest' alike
    have next : Sight.opening.Same (later ++ rest') between.rest := by
      rw [there]
      exact resumed.covers _ _ alike
    have both := readThen_eq_some.mpr
      ⟨_, spelled.read offset _ next, resumed.read (offset + byteLength text) rest' alike⟩
    simp only [List.append_assoc, byteLength_append, Nat.add_assoc, move_add] at both ⊢
    exact both

theorem Local.before {p : Phrase Unit} {q : Phrase α} (hp : p.Local .opening) (hq : q.Local s) :
    (p.before q).Local s :=
  (hp.andThen hq).map fun _ _ => rfl

theorem Local.closedBy {p : Phrase α} {q : Phrase Unit} (hp : p.Local .opening) (hq : q.Local s) :
    (p.closedBy q).Local s :=
  (hp.andThen hq).map fun _ _ => rfl

/-- Wherever a phrase is repeated, it is repeated in the same text in other places. -/
theorem Local.repeats {p : Phrase α} {xs : List α} {c c' : Cursor} (h : p.Local s)
    (repeats : p.Repeats c xs c') :
    ∃ text ys, c.rest = text ++ c'.rest ∧ c'.offset = c.offset + byteLength text ∧
      (c.skip = c → text = [] ∨ Solid text) ∧ xs = move c.offset ys ∧
      ∀ offset rest', s.Same rest' c'.rest →
        p.Repeats ⟨offset, text ++ rest'⟩ (move offset ys) ⟨offset + byteLength text, rest'⟩ := by
  induction repeats with
  | done c =>
    exact ⟨[], [], rfl, rfl, fun _ => .inl rfl, rfl, fun offset rest' _ => .done _⟩
  | @more c next c' x xs first others ih =>
    obtain ⟨later, ys, there, stop, _, rfl, again⟩ := ih
    obtain ⟨text, y, here, rfl, solid, resumed⟩ := h.resumes first
    have middle := resumed.offset_eq here first
    refine ⟨text ++ later, y :: move (byteLength text) ys, ?_, ?_, ?_, ?_, ?_⟩
    · rw [here, there, List.append_assoc]
    · rw [stop, middle, byteLength_append, Nat.add_assoc]
    · exact fun still => .inr ((solid still).append later)
    · rw [middle, move_cons, move_add]
    · intro offset rest' alike
      have next : s.Same (later ++ rest') next.rest := by
        rw [there]
        exact alike.append later
      have both := Repeats.more (resumed.read offset _ next) (again _ rest' alike)
      simp only [move_cons, List.append_assoc, byteLength_append, Nat.add_assoc, move_add] at both ⊢
      exact both

/-- A repetition that is closed by something it cannot go on with. -/
theorem Local.many_closedBy {p : Phrase α} {q : Phrase Unit} (hp : p.Local .opening)
    (hq : q.Local s) (apart : p.Apart q) (consumes : p.Consumes) :
    ((p.many consumes).closedBy q).Local s := by
  intro c xs c' still h
  rw [← still, read_many_closedBy consumes apart] at h
  obtain ⟨between, repeats, closed⟩ := h
  obtain ⟨text, ys, here, stop, solid, sameItems, again⟩ := hp.repeats repeats
  obtain ⟨later, u, there, _, solidEnd, resumed⟩ := hq.resumes closed
  have solid : Solid (text ++ later) := by
    rcases solid still with rfl | solid
    · have same : between = c := Cursor.ext stop here.symm
      exact solidEnd (same ▸ still)
    · exact solid.append _
  refine ⟨text ++ later, ys, ?_, sameItems, solid, ?_, ?_⟩
  · rw [here, there, List.append_assoc]
  · intro a b alike
    simpa using (resumed.covers a b alike).append text
  · intro offset rest' alike
    have next : Sight.opening.Same (later ++ rest') between.rest := by
      rw [there]
      exact resumed.covers _ _ alike
    have ended := resumed.read (offset + byteLength text) rest' alike
    rw [← Cursor.skip_solid solid, read_many_closedBy consumes apart]
    simp only [List.append_assoc, byteLength_append, ← Nat.add_assoc]
    exact ⟨_, again offset _ next, ended⟩

end Phrase

end AlignPlan.Format
