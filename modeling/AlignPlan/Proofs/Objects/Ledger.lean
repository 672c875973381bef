import AlignPlan.Proofs.Encoding.LetterCase
import AlignPlan.Proofs.Lists
import AlignPlan.Proofs.Objects.Table

/-! The table of objects under any series of registrations, some of which it refuses. Refused are
those whose names are taken, letter case aside, and they leave no trace: objects and later answers
are what they would have been without them. A ledger that keeps the objects apart from the owners
of their names gives the same answers. -/
namespace AlignPlan

open Name (Alike)

namespace ObjectTable

/-- Answers with the name of the new object. A table that refuses an object stays as it is. -/
def attempt (t : ObjectTable) (r : Registration) : Except Clash String × ObjectTable :=
  match t.add r with
  | .ok t' => (.ok r.name.render, t')
  | .error clash => (.error clash, t)

theorem attempt_of_refused {t : ObjectTable} {r : Registration} {clash : Clash}
    (refused : (t.attempt r).1 = .error clash) : t.attempt r = (.error clash, t) := by
  unfold attempt at *
  cases found : t.add r with
  | ok t' =>
    rw [found] at refused
    cases refused
  | error other =>
    rw [found] at refused
    cases refused
    rfl

theorem attempt_cases (t : ObjectTable) (r : Registration) :
    (∃ holder ∈ t.entries, Alike holder.name r.name.render ∧
      t.holder? r.name.render = some holder ∧ t.attempt r = (.error ⟨r.entry, holder⟩, t)) ∨
    ((∀ holder ∈ t.entries, ¬Alike holder.name r.name.render) ∧
      t.holder? r.name.render = none ∧
      t.attempt r = (.ok r.name.render, ⟨t.entries ++ [r.entry]⟩)) := by
  unfold attempt add
  cases found : t.holder? r.name.render with
  | some holder =>
    have alike := List.find?_some found
    exact .inl ⟨holder, List.mem_of_find?_eq_some found, eq_of_beq alike, rfl, rfl⟩
  | none =>
    refine .inr ⟨?_, rfl, rfl⟩
    intro holder member alike
    exact holder?_eq_none.mp found (alike ▸ List.mem_map_of_mem member)

def answers (adds : List Registration) : List (Except Clash String) :=
  (serve attempt empty adds).1

def after (adds : List Registration) : ObjectTable := (serve attempt empty adds).2

/-- The registrations that are not refused. -/
def granted (adds : List Registration) : List Registration :=
  ((adds.zip (answers adds)).filter fun request => request.2.isOk).map Prod.fst

theorem granted_concat (adds : List Registration) (r : Registration) : granted (adds ++ [r]) =
    granted adds ++ if ((after adds).attempt r).1.isOk then [r] else [] := by
  have length : adds.length = (answers adds).length := (length_serve empty adds).symm
  have last : answers (adds ++ [r]) = answers adds ++ [((after adds).attempt r).1] := by
    rw [answers, serve_concat]
    rfl
  rw [granted, last, List.zip_append length, List.filter_append, List.map_append, ← granted]
  cases ((after adds).attempt r).1 <;> rfl

theorem after_concat (adds : List Registration) (r : Registration) :
    after (adds ++ [r]) = ((after adds).attempt r).2 := by
  rw [after, serve_concat]
  rfl

/-- The table holds what was granted. -/
theorem entries_after (adds : List Registration) :
    (after adds).entries = (granted adds).map Registration.entry := by
  induction adds using List.reverseRecOn with
  | nil => rfl
  | append_singleton adds r ih =>
    rw [after_concat, granted_concat]
    rcases attempt_cases (after adds) r with ⟨holder, _, _, _, refused⟩ | ⟨_, _, accepted⟩
    · simp [refused, ih, Except.isOk, Except.toBool]
    · simp [accepted, ih, Except.isOk, Except.toBool]

/-- One more request is refused because of an object that was granted, or it is granted. -/
theorem attempt_after_cases (adds : List Registration) (r : Registration) :
    (∃ s ∈ granted adds, Alike s.name.render r.name.render ∧
      (after adds).attempt r = (.error ⟨r.entry, s.entry⟩, after adds) ∧
      granted (adds ++ [r]) = granted adds) ∨
    ((∀ s ∈ granted adds, ¬Alike s.name.render r.name.render) ∧
      (after adds).attempt r = (.ok r.name.render, ⟨(after adds).entries ++ [r.entry]⟩) ∧
      granted (adds ++ [r]) = granted adds ++ [r]) := by
  rw [granted_concat]
  rcases attempt_cases (after adds) r with ⟨holder, held, alike, _, refused⟩ | ⟨free, _, accepted⟩
  · rw [entries_after] at held
    obtain ⟨s, listed, rfl⟩ := List.mem_map.mp held
    exact .inl ⟨s, listed, alike, refused, by simp [refused, Except.isOk, Except.toBool]⟩
  · rw [entries_after] at free
    refine .inr ⟨?_, accepted, by simp [accepted, Except.isOk, Except.toBool]⟩
    intro s listed
    exact free s.entry (List.mem_map_of_mem listed)

theorem pairwise_granted (adds : List Registration) :
    (granted adds).Pairwise fun s r => ¬Alike s.name.render r.name.render := by
  induction adds using List.reverseRecOn with
  | nil => exact .nil
  | append_singleton adds r ih =>
    rcases attempt_after_cases adds r with ⟨_, _, _, _, same⟩ | ⟨free, _, grown⟩
    · rw [same]
      exact ih
    · rw [grown]
      refine List.pairwise_append.mpr ⟨ih, List.pairwise_singleton _ _, ?_⟩
      intro s listed r' last
      rw [List.mem_singleton.mp last]
      exact free s listed

/-- A refused request might as well not have been made. -/
theorem answers_of_refused {adds : List Registration} {r : Registration} {clash : Clash}
    (refused : ((after adds).attempt r).1 = .error clash) (later : List Registration) :
    after (adds ++ r :: later) = after (adds ++ later) ∧
      ∃ others, answers (adds ++ later) = answers adds ++ others ∧
        answers (adds ++ r :: later) = answers adds ++ .error clash :: others := by
  have unchanged : (serve attempt empty adds).2.attempt r = (.error clash, after adds) :=
    attempt_of_refused refused
  refine ⟨?_, (serve attempt (after adds) later).1, ?_, ?_⟩
  · rw [after, after, serve_append, serve_append, serve, unchanged]
    rfl
  · rw [answers, serve_append]
    rfl
  · rw [answers, serve_append, serve, unchanged]
    rfl

end ObjectTable

/-- The objects in order and, for each name without its letter case, the automaton that brought it
in. -/
structure Ledger where
  objects : List Planning.Object
  owners : Std.HashMap String String

namespace Ledger

def empty : Ledger := ⟨[], ∅⟩

/-- A refusal says whom it blames and what is logged. -/
def add (l : Ledger) (r : Registration) : Except (Fault × Log.Record) String × Ledger :=
  let name := r.name.render
  match l.owners[Name.caseless name]? with
  | some first =>
    (.error (⟨r.owner, .collision name⟩, ⟨.debug, .naming, name ++ " from " ++ r.owner ++
      " clashes with an object of " ++ first⟩), l)
  | none =>
    (.ok name, ⟨l.objects ++ [r.object], l.owners.insert (Name.caseless name) r.owner⟩)

/-- The objects are those of the table, and names have the owners that they have there. -/
structure Mirrors (t : ObjectTable) (l : Ledger) : Prop where
  objects : l.objects = t.objects
  owners : ∀ name, l.owners[Name.caseless name]? = (t.holder? name).map ObjectEntry.owner

theorem mirrors_empty : Mirrors ObjectTable.empty empty :=
  ⟨rfl, fun _ => Std.HashMap.getElem?_empty⟩

theorem Mirrors.concat {t : ObjectTable} {l : Ledger} (mirrors : Mirrors t l) {r : Registration}
    (fresh : t.holder? r.name.render = none) : Mirrors ⟨t.entries ++ [r.entry]⟩
      ⟨l.objects ++ [r.object], l.owners.insert (Name.caseless r.name.render) r.owner⟩ := by
  constructor
  · rw [mirrors.objects, ObjectTable.objects, ObjectTable.objects, List.map_append]
    rfl
  · intro name
    have held : (⟨t.entries ++ [r.entry]⟩ : ObjectTable).holder? name = (t.holder? name).or
        (if Name.caseless r.name.render = Name.caseless name then some r.entry else none) := by
      by_cases same : Name.caseless r.name.render = Name.caseless name <;>
        simp [ObjectTable.holder?, Registration.entry, same]
    have owned := mirrors.owners name
    rw [held, Std.HashMap.getElem?_insert]
    by_cases same : Name.caseless r.name.render = Name.caseless name
    · have free : t.holder? name = none := by
        rw [ObjectTable.holder?_eq_none] at fresh ⊢
        rwa [← same]
      simp [same, free, Registration.entry]
    · simp [same, owned]

theorem Mirrors.add {t : ObjectTable} {l : Ledger} (mirrors : Mirrors t l) (r : Registration) :
    (l.add r).1 = (t.attempt r).1.mapError (fun clash => (clash.fault, clash.record)) ∧
      Mirrors (t.attempt r).2 (l.add r).2 := by
  have owner := mirrors.owners r.name.render
  rcases t.attempt_cases r with ⟨holder, _, _, found, refused⟩ | ⟨_, fresh, accepted⟩
  · rw [found, Option.map_some] at owner
    rw [refused, Ledger.add]
    simp only [owner]
    exact ⟨rfl, mirrors⟩
  · rw [fresh, Option.map_none] at owner
    rw [accepted, Ledger.add]
    simp only [owner]
    exact ⟨rfl, mirrors.concat fresh⟩

theorem serve_add (adds : List Registration) :
    (serve add empty adds).1 = (ObjectTable.answers adds).map (fun answer =>
      answer.mapError fun clash => (clash.fault, clash.record)) ∧
      Mirrors (ObjectTable.after adds) (serve add empty adds).2 :=
  serve_of_related (fun _ _ r mirrors => mirrors.add r) mirrors_empty adds

end Ledger

namespace ObjectTable

/-- What becomes of registrations, `adds`, that are made in turn. -/
structure RefusesTaken (adds : List Registration) : Prop where
  /-- The next registration is refused exactly if its name is that of an earlier one that was
  granted, letter case aside. -/
  refused_iff : ∀ r, (∃ clash, ((after adds).attempt r).1 = .error clash) ↔
    ∃ s ∈ granted adds, Alike s.name.render r.name.render
  name : ∀ r name, ((after adds).attempt r).1 = .ok name → name = r.name.render
  fault : ∀ r clash, ((after adds).attempt r).1 = .error clash →
    clash.fault = ⟨r.owner, .collision r.name.render⟩
  /-- Once refused, a registration changes neither the table nor the answers to others. -/
  ignored : ∀ r clash, ((after adds).attempt r).1 = .error clash → ∀ later,
    after (adds ++ r :: later) = after (adds ++ later) ∧
      ∃ others, answers (adds ++ later) = answers adds ++ others ∧
        answers (adds ++ r :: later) = answers adds ++ .error clash :: others
  objects : (after adds).objects = (granted adds).map Registration.object
  size : (after adds).size = (granted adds).length
  countOfType : ∀ type,
    (after adds).countOfType type = ((granted adds).filter fun r => r.type == type).length
  apart : (after adds).objects.Pairwise fun o o' => ¬Alike o.name o'.name
  ledger_answers : (serve Ledger.add .empty adds).1 = (answers adds).map fun answer =>
    answer.mapError fun clash => (clash.fault, clash.record)
  ledger_objects : (serve Ledger.add .empty adds).2.objects = (after adds).objects

theorem refused_iff (adds : List Registration) (r : Registration) :
    (∃ clash, ((after adds).attempt r).1 = .error clash) ↔
      ∃ s ∈ granted adds, Alike s.name.render r.name.render := by
  rcases attempt_after_cases adds r with ⟨s, listed, alike, refused, _⟩ | ⟨free, accepted, _⟩
  · rw [refused]
    exact iff_of_true ⟨_, rfl⟩ ⟨s, listed, alike⟩
  · rw [accepted]
    refine iff_of_false (by simp) ?_
    rintro ⟨s, listed, alike⟩
    exact free s listed alike

/-- The new object has the name that was asked for, and it is the newcomer who is blamed. -/
theorem answer_eq (t : ObjectTable) (r : Registration) :
    (t.attempt r).1.mapError Clash.fault = .ok r.name.render ∨
      (t.attempt r).1.mapError Clash.fault = .error ⟨r.owner, .collision r.name.render⟩ := by
  rcases t.attempt_cases r with ⟨holder, _, _, _, refused⟩ | ⟨_, _, accepted⟩
  · rw [refused]
    exact .inr rfl
  · rw [accepted]
    exact .inl rfl

theorem objects_after (adds : List Registration) :
    (after adds).objects = (granted adds).map Registration.object := by
  rw [objects, entries_after, List.map_map]
  rfl

theorem size_after (adds : List Registration) :
    (after adds).size = (granted adds).length := by
  rw [size, entries_after, List.length_map]

theorem countOfType_after (adds : List Registration) (type : String) :
    (after adds).countOfType type =
      ((granted adds).filter fun r => r.type == type).length := by
  rw [countOfType, objects_after, Planning.objectsOfType, List.length_map, List.filter_map,
    List.length_map]
  rfl

/-- Whatever is registered, the table refuses exactly what has a name that is taken. -/
theorem refusesTaken (adds : List Registration) : RefusesTaken adds where
  refused_iff := refused_iff adds
  name r name accepted := by
    have answer := answer_eq (after adds) r
    rw [accepted] at answer
    simpa [Except.mapError] using answer
  fault r clash refused := by
    have answer := answer_eq (after adds) r
    rw [refused] at answer
    simpa [Except.mapError] using answer
  ignored r clash refused later := answers_of_refused refused later
  objects := objects_after adds
  size := size_after adds
  countOfType := countOfType_after adds
  apart := by
    rw [objects_after, List.pairwise_map]
    exact pairwise_granted adds
  ledger_answers := (Ledger.serve_add adds).1
  ledger_objects := (Ledger.serve_add adds).2.objects

end ObjectTable

end AlignPlan
