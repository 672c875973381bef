import AlignPlan.Format.Phrase
import AlignPlan.Proofs.Format.Layout

/-! How phrases read words that are laid out in any way. A phrase takes some words if it reads
them off every text that starts with them, and refuses words if it reads nothing off a text made
of them. Choices and repetitions need both: what comes first has to be refused for the next
alternative to be tried, and what comes after a repetition has to be refused for it to end. -/
namespace AlignPlan.Format.Phrase

variable {α β ι : Type} {Good : α → Prop} {words : List String}

/-- Of a text that starts with `words`, exactly these are read, and the result is good. -/
def Takes (p : Phrase α) (words : List String) (Good : α → Prop) : Prop :=
  ∀ c more, Faces (words ++ more) c.rest →
    ∃ x c', p.read c = some (x, c') ∧ Good x ∧ Follows more c'.rest

/-- Nothing is read of a text that has these words up to its end. -/
def Refuses (p : Phrase α) (words : List String) : Prop :=
  ∀ c, Faces words c.rest → p.read c = none

theorem read_before {p : Phrase Unit} {q : Phrase α} {c between c' : Cursor} {x : α}
    (first : p.read c = some ((), between)) (second : q.read between.skip = some (x, c')) :
    (p.before q).read c = some (x, c') :=
  Option.map_eq_some_iff.mpr ⟨_, readThen_eq_some.mpr ⟨between, first, second⟩, rfl⟩

theorem read_closedBy {p : Phrase α} {q : Phrase Unit} {c between c' : Cursor} {x : α}
    (first : p.read c = some (x, between)) (second : q.read between.skip = some ((), c')) :
    (p.closedBy q).read c = some (x, c') :=
  Option.map_eq_some_iff.mpr ⟨_, readThen_eq_some.mpr ⟨between, first, second⟩, rfl⟩

theorem Takes.named {p : Phrase α} (h : p.Takes words Good) (symbol : Symbol) :
    (named symbol p).Takes words Good := h

theorem Refuses.named {p : Phrase α} (h : p.Refuses words) (symbol : Symbol) :
    (named symbol p).Refuses words := h

theorem Takes.map {p : Phrase α} {f : α → β} {Image : β → Prop}
    (h : p.Takes words fun x => Image (f x)) : (p.map f).Takes words Image := by
  intro c more faces
  obtain ⟨x, c', found, good, follows⟩ := h c more faces
  exact ⟨f x, c', Option.map_eq_some_iff.mpr ⟨_, found, rfl⟩, good, follows⟩

theorem Refuses.map {p : Phrase α} (h : p.Refuses words) (f : α → β) :
    (p.map f).Refuses words := by
  intro c faces
  exact Option.map_eq_none_iff.mpr (h c faces)

theorem Takes.located {p : Phrase α} (h : p.Takes words Good) :
    p.located.Takes words fun x => Good x.value := by
  intro c more faces
  obtain ⟨x, c', found, good, follows⟩ := h c more faces
  exact ⟨_, c', Option.map_eq_some_iff.mpr ⟨_, found, rfl⟩, good, follows⟩

theorem Refuses.located {p : Phrase α} (h : p.Refuses words) : p.located.Refuses words := by
  intro c faces
  exact Option.map_eq_none_iff.mpr (h c faces)

theorem Takes.andThen {p : Phrase α} {q : Phrase β} {Next : β → Prop} {later : List String}
    (hp : p.Takes words Good) (hq : q.Takes later Next) (begins : Begins later) :
    (p.andThen q).Takes (words ++ later) fun xy => Good xy.1 ∧ Next xy.2 := by
  intro c more faces
  rw [List.append_assoc] at faces
  obtain ⟨x, between, first, good, follows⟩ := hp c _ faces
  obtain ⟨y, c', second, next, follows⟩ :=
    hq between.skip more (faces_skip (begins.starts more) follows)
  exact ⟨(x, y), c', readThen_eq_some.mpr ⟨between, first, second⟩, ⟨good, next⟩, follows⟩

theorem Takes.mono {p : Phrase α} {Better : α → Prop} (h : p.Takes words Better)
    (weaken : ∀ x, Better x → Good x) : p.Takes words Good := by
  intro c more faces
  obtain ⟨x, c', found, better, follows⟩ := h c more faces
  exact ⟨x, c', found, weaken x better, follows⟩

theorem Takes.before {p : Phrase Unit} {q : Phrase α} {later : List String} {Any : Unit → Prop}
    (hp : p.Takes words Any) (hq : q.Takes later Good) (begins : Begins later) :
    (p.before q).Takes (words ++ later) Good :=
  ((hp.andThen hq begins).mono fun _ both => both.2).map

theorem Takes.closedBy {p : Phrase α} {q : Phrase Unit} {later : List String} {Any : Unit → Prop}
    (hp : p.Takes words Good) (hq : q.Takes later Any) (begins : Begins later) :
    (p.closedBy q).Takes (words ++ later) Good :=
  ((hp.andThen hq begins).mono fun _ both => both.1).map

theorem Refuses.andThen {p : Phrase α} (h : p.Refuses words) (q : Phrase β) :
    (p.andThen q).Refuses words := by
  intro c faces
  simp only [Phrase.andThen, readThen, h c faces]

/-- What comes second is refused wherever the first may have ended. -/
theorem refuses_andThen {p : Phrase α} {q : Phrase β}
    (h : ∀ c x c', Faces words c.rest → p.read c = some (x, c') → q.read c'.skip = none) :
    (p.andThen q).Refuses words := by
  intro c faces
  simp only [Phrase.andThen, readThen]
  cases found : p.read c with
  | none => rfl
  | some first => simp only [h c first.1 first.2 faces found]

theorem Takes.orElse {p : Phrase α} (h : p.Takes words Good) (q : Phrase α) :
    (p.orElse q).Takes words Good := by
  intro c more faces
  obtain ⟨x, c', found, good, follows⟩ := h c more faces
  exact ⟨x, c', Option.or_eq_some_iff.mpr (.inl found), good, follows⟩

theorem Refuses.orElse_takes {p q : Phrase α} (refused : ∀ more, p.Refuses (words ++ more))
    (h : q.Takes words Good) : (p.orElse q).Takes words Good := by
  intro c more faces
  obtain ⟨x, c', found, good, follows⟩ := h c more faces
  exact ⟨x, c', Option.or_eq_some_iff.mpr (.inr ⟨refused more c faces, found⟩), good, follows⟩

theorem Refuses.orElse {p q : Phrase α} (hp : p.Refuses words) (hq : q.Refuses words) :
    (p.orElse q).Refuses words := by
  intro c faces
  exact Option.or_eq_none_iff.mpr ⟨hp c faces, hq c faces⟩

section Repetition

variable {p : Phrase α} (consumes : p.Consumes) {spelling : ι → List String}
  {view : α → ι} {stop : List String}

theorem starts_flatMap {xs : List ι} (begins : ∀ i ∈ xs, Begins (spelling i))
    (starts : Starts stop) : Starts (xs.flatMap spelling ++ stop) := by
  cases xs with
  | nil => exact starts
  | cons i xs =>
    rw [List.flatMap_cons, List.append_assoc]
    exact (begins i List.mem_cons_self).starts _

theorem readMore_takes {xs : List ι} (each : ∀ i ∈ xs, p.Takes (spelling i) fun x => view x = i)
    (begins : ∀ i ∈ xs, Begins (spelling i)) (starts : Starts stop)
    (refused : p.Refuses stop) {c : Cursor} (follows : Follows (xs.flatMap spelling ++ stop) c.rest) :
    ∃ ys c', p.readMore consumes c = (ys, c') ∧ ys.map view = xs ∧ Follows stop c'.rest := by
  induction xs generalizing c with
  | nil =>
    refine ⟨[], c, ?_, rfl, follows⟩
    rw [readMore.eq_def, refused c.skip (faces_skip starts follows)]
  | cons i xs ih =>
    have faces := faces_skip (starts_flatMap begins starts) follows
    rw [List.flatMap_cons, List.append_assoc] at faces
    rw [List.forall_mem_cons] at each begins
    obtain ⟨x, next, found, fits, follows⟩ := each.1 c.skip _ faces
    obtain ⟨ys, c', rest, all, follows⟩ := ih each.2 begins.2 follows
    refine ⟨x :: ys, c', ?_, by rw [List.map_cons, fits, all], follows⟩
    rw [readMore.eq_def, found]
    simp only [rest]

theorem many_takes {xs : List ι} (each : ∀ i ∈ xs, p.Takes (spelling i) fun x => view x = i)
    (begins : ∀ i ∈ xs, Begins (spelling i)) (starts : Starts stop)
    (refused : p.Refuses stop) {c : Cursor} (faces : Faces (xs.flatMap spelling ++ stop) c.rest) :
    ∃ ys c', (p.many consumes).read c = some (ys, c') ∧ ys.map view = xs ∧
      Faces stop c'.skip.rest := by
  cases xs with
  | nil =>
    refine ⟨[], c, ?_, rfl, ?_⟩
    · simp only [many, refused c faces]
    · rw [skip_of_faces starts faces]
      exact faces
  | cons i xs =>
    rw [List.flatMap_cons, List.append_assoc] at faces
    rw [List.forall_mem_cons] at each begins
    obtain ⟨x, next, found, fits, follows⟩ := each.1 c _ faces
    obtain ⟨ys, c', rest, all, follows⟩ :=
      readMore_takes consumes each.2 begins.2 starts refused follows
    refine ⟨x :: ys, c', ?_, by rw [List.map_cons, fits, all], faces_skip starts follows⟩
    simp only [many, found, rest]

/-- A repetition up to words that cannot be one more. -/
theorem many_closedBy_takes {q : Phrase Unit} {Any : Unit → Prop} {xs : List ι}
    (each : ∀ i ∈ xs, p.Takes (spelling i) fun x => view x = i)
    (begins : ∀ i ∈ xs, Begins (spelling i)) (closed : q.Takes stop Any) (stops : Begins stop)
    (refused : ∀ more, p.Refuses (stop ++ more)) :
    ((p.many consumes).closedBy q).Takes (xs.flatMap spelling ++ stop) fun ys =>
      ys.map view = xs := by
  intro c more faces
  rw [List.append_assoc] at faces
  obtain ⟨ys, between, first, all, faces⟩ :=
    many_takes consumes each begins (stops.starts more) (refused more) faces
  obtain ⟨u, c', second, _, follows⟩ := closed between.skip more faces
  exact ⟨ys, c', read_closedBy first second, all, follows⟩

end Repetition

end AlignPlan.Format.Phrase
