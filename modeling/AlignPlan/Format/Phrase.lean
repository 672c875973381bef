import AlignPlan.Format.Cursor
import AlignPlan.Format.Expectation

/-! Phrases of a grammar with ordered choice and no way back into a finished repetition. What a
phrase reads never depends on the failures on the way, so the two are functions of their own:
`read` gives the value and the position after it, `trail` the failures worth reporting. Between
two parts of a phrase there may be white space and comments. -/
namespace AlignPlan.Format

/-- A phrase never adds to the text that is left. -/
structure Phrase (α : Type) where
  read : Cursor → Option (α × Cursor)
  trail : Cursor → Trail → Trail
  shrinks : ∀ {c x c'}, read c = some (x, c') → c'.rest.length ≤ c.rest.length

namespace Phrase

variable {α β : Type}

/-- Whenever it is read, a character at least is gone. Only such phrases can be repeated. -/
def Consumes (p : Phrase α) : Prop :=
  ∀ c x c', p.read c = some (x, c') → c'.rest.length < c.rest.length

/-- Holds at every position. -/
def here : Phrase Unit where
  read c := some ((), c)
  trail _ t := t
  shrinks h := by simp_all

/-- A fixed text, which is not worth mentioning when it is missing. -/
def literal (text : String) : Phrase Unit where
  read c := (c.drop? text.toList).map fun c => ((), c)
  trail _ t := t
  shrinks h := by
    obtain ⟨after, dropped, same⟩ := Option.map_eq_some_iff.mp h
    cases same
    have := Cursor.length_drop? dropped
    omega

theorem consumes_literal {text : String} (nonempty : text.toList ≠ []) :
    (literal text).Consumes := by
  intro c x c' h
  obtain ⟨after, dropped, same⟩ := Option.map_eq_some_iff.mp h
  cases same
  have := Cursor.length_drop? dropped
  have := List.length_pos_iff.mpr nonempty
  omega

/-- A symbol read character by character; failures inside it are not recorded. -/
def atom (symbol : Symbol) (read : Cursor → Option (α × Cursor))
    (shrinks : ∀ {c x c'}, read c = some (x, c') → c'.rest.length ≤ c.rest.length) :
    Phrase α where
  read := read
  trail c t := if (read c).isSome then t else t.settle t c.offset symbol
  shrinks := shrinks

/-- A symbol made of smaller ones. -/
def named (symbol : Symbol) (p : Phrase α) : Phrase α where
  read := p.read
  trail c t :=
    let after := p.trail c t
    if (p.read c).isSome then after else t.settle after c.offset symbol
  shrinks := p.shrinks

theorem Consumes.named {p : Phrase α} (h : p.Consumes) (symbol : Symbol) :
    (named symbol p).Consumes := h

def map (f : α → β) (p : Phrase α) : Phrase β where
  read c := (p.read c).map fun (x, c) => (f x, c)
  trail := p.trail
  shrinks h := by
    obtain ⟨⟨x, c'⟩, found, same⟩ := Option.map_eq_some_iff.mp h
    cases same
    exact p.shrinks found

theorem Consumes.map {p : Phrase α} (h : p.Consumes) (f : α → β) : (p.map f).Consumes := by
  intro c y c' mapped
  obtain ⟨⟨x, after⟩, found, same⟩ := Option.map_eq_some_iff.mp mapped
  cases same
  exact h _ _ _ found

def located (p : Phrase α) : Phrase (Located α) where
  read c := (p.read c).map fun (x, c') => (⟨x, c.offset, c'.offset⟩, c')
  trail := p.trail
  shrinks h := by
    obtain ⟨⟨x, c'⟩, found, same⟩ := Option.map_eq_some_iff.mp h
    cases same
    exact p.shrinks found

theorem Consumes.located {p : Phrase α} (h : p.Consumes) : p.located.Consumes := by
  intro c y c' mapped
  obtain ⟨⟨x, after⟩, found, same⟩ := Option.map_eq_some_iff.mp mapped
  cases same
  exact h _ _ _ found

/-- One phrase after the other. -/
def readThen (p : Phrase α) (q : Phrase β) (c : Cursor) : Option ((α × β) × Cursor) :=
  match p.read c with
  | none => none
  | some (x, c) =>
    match q.read c.skip with
    | none => none
    | some (y, c) => some ((x, y), c)

theorem readThen_eq_some {p : Phrase α} {q : Phrase β} {c c' : Cursor} {x : α} {y : β} :
    readThen p q c = some ((x, y), c') ↔
      ∃ between, p.read c = some (x, between) ∧ q.read between.skip = some (y, c') := by
  unfold readThen
  constructor
  · intro h
    split at h
    next => cases h
    next x between first =>
      split at h
      next => cases h
      next y after second =>
        cases h
        exact ⟨between, first, second⟩
  · rintro ⟨between, first, second⟩
    simp [first, second]

def andThen (p : Phrase α) (q : Phrase β) : Phrase (α × β) where
  read := readThen p q
  trail c t :=
    let t := p.trail c t
    match p.read c with
    | none => t
    | some (_, c) => q.trail c.skip t
  shrinks h := by
    obtain ⟨between, first, second⟩ := readThen_eq_some.mp h
    have := p.shrinks first
    have := q.shrinks second
    have := between.length_skip
    omega

theorem Consumes.andThen {p : Phrase α} (h : p.Consumes) (q : Phrase β) :
    (p.andThen q).Consumes := by
  intro c xy c' found
  obtain ⟨between, first, second⟩ := readThen_eq_some.mp found
  have := h _ _ _ first
  have := q.shrinks second
  have := between.length_skip
  omega

def before (p : Phrase Unit) (q : Phrase α) : Phrase α := (p.andThen q).map Prod.snd

def closedBy (p : Phrase α) (q : Phrase Unit) : Phrase α := (p.andThen q).map Prod.fst

theorem Consumes.before {p : Phrase Unit} (h : p.Consumes) (q : Phrase α) :
    (p.before q).Consumes :=
  (h.andThen q).map _

/-- The second phrase is tried where the first fails. -/
def orElse (p q : Phrase α) : Phrase α where
  read c := (p.read c).or (q.read c)
  trail c t :=
    let t := p.trail c t
    if (p.read c).isSome then t else q.trail c t
  shrinks h := by
    rcases Option.or_eq_some_iff.mp h with h | ⟨_, h⟩
    · exact p.shrinks h
    · exact q.shrinks h

theorem Consumes.orElse {p q : Phrase α} (hp : p.Consumes) (hq : q.Consumes) :
    (p.orElse q).Consumes := by
  intro c x c' h
  rcases Option.or_eq_some_iff.mp h with h | ⟨_, h⟩
  · exact hp _ _ _ h
  · exact hq _ _ _ h

/-- Repetitions that follow a first one. -/
def readMore (p : Phrase α) (consumes : p.Consumes) (c : Cursor) : List α × Cursor :=
  match _found : p.read c.skip with
  | none => ([], c)
  | some (x, next) =>
    let (xs, after) := readMore p consumes next
    (x :: xs, after)
termination_by c.rest.length
decreasing_by
  have := consumes _ _ _ _found
  have := c.length_skip
  omega

def trailMore (p : Phrase α) (consumes : p.Consumes) (c : Cursor) (t : Trail) : Trail :=
  let t := p.trail c.skip t
  match _found : p.read c.skip with
  | none => t
  | some (_, next) => trailMore p consumes next t
termination_by c.rest.length
decreasing_by
  have := consumes _ _ _ _found
  have := c.length_skip
  omega

theorem length_readMore (p : Phrase α) (consumes : p.Consumes) (c : Cursor) :
    (p.readMore consumes c).2.rest.length ≤ c.rest.length := by
  fun_induction readMore p consumes c with
  | case1 => simp
  | case2 c x next found xs after more ih =>
    have := consumes _ _ _ found
    have := c.length_skip
    simp only [more] at ih
    simp only
    omega

/-- As many repetitions as there are. -/
def many (p : Phrase α) (consumes : p.Consumes) : Phrase (List α) where
  read c :=
    match p.read c with
    | none => some ([], c)
    | some (x, next) =>
      let (xs, after) := p.readMore consumes next
      some (x :: xs, after)
  trail c t :=
    let t := p.trail c t
    match p.read c with
    | none => t
    | some (_, next) => p.trailMore consumes next t
  shrinks {c xs c'} h := by
    split at h
    next => cases h; omega
    next x next found =>
      have := p.shrinks found
      have := p.length_readMore consumes next
      cases h
      omega

end Phrase

end AlignPlan.Format
