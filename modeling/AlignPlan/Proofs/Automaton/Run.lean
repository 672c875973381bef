import AlignPlan.Encoding.Inputs
import Mathlib.Data.List.Induction
import Mathlib.Tactic.Tauto

/-! Runs of automata that need not be deterministic or total. A run keeps the set of current
states: on an activity every current state is replaced by all its successors, and a state
without a successor stays. -/
namespace AlignPlan

/-- Replaces every element that has successors by them and keeps the others. -/
def moveAll {α : Type} (next : α → List α) (current : List α) : List α :=
  current.flatMap fun x =>
    match next x with
    | [] => [x]
    | ys => ys

section

variable {α : Type} {next : α → List α} {current : List α} {x y : α}

theorem mem_moveAll : y ∈ moveAll next current ↔
    (y ∈ current ∧ next y = []) ∨ ∃ x ∈ current, y ∈ next x := by
  simp only [moveAll, List.mem_flatMap]
  constructor
  · rintro ⟨x, member, moved⟩
    split at moved
    next stays =>
      obtain rfl := List.mem_singleton.mp moved
      exact .inl ⟨member, stays⟩
    next => exact .inr ⟨x, member, moved⟩
  · rintro (⟨member, stays⟩ | ⟨x, member, moved⟩)
    · exact ⟨y, member, by simp [stays]⟩
    · refine ⟨x, member, ?_⟩
      split
      next stays => simp [stays] at moved
      next => exact moved

theorem moveAll_eq_self (stays : ∀ x ∈ current, next x = []) : moveAll next current = current := by
  induction current with
  | nil => rfl
  | cons x xs ih =>
    have tail := ih fun y member => stays y (List.mem_cons_of_mem x member)
    simp only [moveAll] at tail ⊢
    rw [List.flatMap_cons, stays x List.mem_cons_self, tail]
    rfl

theorem moveAll_map {β : Type} {f : α → β} {next' : β → List β}
    (along : ∀ x, next' (f x) = (next x).map f) :
    moveAll next' (current.map f) = (moveAll next current).map f := by
  simp only [moveAll, List.flatMap_map, List.map_flatMap, along]
  congr
  funext x
  cases next x <;> rfl

theorem moveAll_ne_nil (h : current ≠ []) : moveAll next current ≠ [] := by
  obtain ⟨x, member⟩ := List.exists_mem_of_ne_nil current h
  cases moved : next x with
  | nil => exact List.ne_nil_of_mem (mem_moveAll.mpr (.inl ⟨member, moved⟩))
  | cons y ys =>
    exact List.ne_nil_of_mem (mem_moveAll.mpr (.inr ⟨x, member, moved ▸ List.mem_cons_self⟩))

/-- Equal elements with at most one successor move to equal elements. -/
theorem moveAll_unique (alone : ∀ x ∈ current, ∀ y ∈ current, x = y)
    (single : ∀ x ∈ current, ∀ y ∈ next x, ∀ z ∈ next x, y = z) :
    ∀ x ∈ moveAll next current, ∀ y ∈ moveAll next current, x = y := by
  intro x hx y hy
  rw [mem_moveAll] at hx hy
  rcases hx with ⟨hx, stays⟩ | ⟨x', hx', movedX⟩ <;>
    rcases hy with ⟨hy, stays'⟩ | ⟨y', hy', movedY⟩
  · exact alone x hx y hy
  · obtain rfl := alone x hx y' hy'
    simp [stays] at movedY
  · obtain rfl := alone x' hx' y hy
    simp [stays'] at movedX
  · obtain rfl := alone x' hx' y' hy'
    exact single x' hx' x movedX y movedY

end

namespace Automaton

variable {a : Automaton}

/-- The targets of the transitions of a state on an activity. -/
def successors (a : Automaton) (symbol : String) (state : Nat) : List Nat :=
  (a.transitions.filter fun t => t.source == state && t.symbol == symbol).map Transition.target

theorem mem_successors {symbol : String} {state target : Nat} :
    target ∈ a.successors symbol state ↔ ⟨state, symbol, target⟩ ∈ a.transitions := by
  simp only [successors, List.mem_map, List.mem_filter, Bool.and_eq_true, beq_iff_eq]
  constructor
  · rintro ⟨t, ⟨member, rfl, rfl⟩, rfl⟩
    exact member
  · intro member
    exact ⟨_, ⟨member, rfl, rfl⟩, rfl⟩

/-- The current states after an activity. -/
def advance (a : Automaton) (current : List Nat) (symbol : String) : List Nat :=
  moveAll (a.successors symbol) current

/-- The current states after a word, from the initial state. -/
def run (a : Automaton) (word : List String) : List Nat := word.foldl a.advance [a.start]

@[simp] theorem run_nil : a.run [] = [a.start] := rfl

@[simp] theorem run_concat (word : List String) (symbol : String) :
    a.run (word ++ [symbol]) = a.advance (a.run word) symbol := by
  simp [run, List.foldl_append]

theorem run_ne_nil (word : List String) : a.run word ≠ [] := by
  induction word using List.reverseRecOn with
  | nil => simp
  | append_singleton word symbol ih => rw [run_concat]; exact moveAll_ne_nil ih

/-- At most one target for every state and activity. -/
def Deterministic (a : Automaton) : Prop :=
  ∀ t ∈ a.transitions, ∀ u ∈ a.transitions,
    t.source = u.source → t.symbol = u.symbol → t.target = u.target

instance (a : Automaton) : Decidable a.Deterministic :=
  inferInstanceAs (Decidable (∀ t ∈ a.transitions, ∀ u ∈ a.transitions,
    t.source = u.source → t.symbol = u.symbol → t.target = u.target))

theorem Deterministic.successors_unique (deterministic : a.Deterministic) {symbol : String}
    {state : Nat} : ∀ x ∈ a.successors symbol state, ∀ y ∈ a.successors symbol state, x = y := by
  intro x hx y hy
  rw [mem_successors] at hx hy
  exact deterministic _ hx _ hy rfl rfl

/-- A deterministic automaton is in one state at a time. -/
theorem run_unique (deterministic : a.Deterministic) (word : List String) {x y : Nat}
    (hx : x ∈ a.run word) (hy : y ∈ a.run word) : x = y := by
  induction word using List.reverseRecOn generalizing x y with
  | nil => simp_all
  | append_singleton word symbol ih =>
    rw [run_concat] at hx hy
    exact moveAll_unique (fun _ hx _ hy => ih hx hy) (fun _ _ => deterministic.successors_unique)
      x hx y hy

/-- A word is accepted if one of the states it leads to accepts. -/
def Accepts (a : Automaton) (word : List String) : Prop :=
  ∃ state ∈ a.run word, state ∈ a.accepting

theorem accepts_of_all {word : List String}
    (all : ∀ state ∈ a.run word, state ∈ a.accepting) : a.Accepts word := by
  obtain ⟨state, reached⟩ := List.exists_mem_of_ne_nil _ (a.run_ne_nil word)
  exact ⟨state, reached, all state reached⟩

/-- A deterministic automaton accepts a word if the only state it leads to accepts. -/
theorem Deterministic.accepts_iff (deterministic : a.Deterministic) {word : List String} :
    a.Accepts word ↔ ∃ state ∈ a.accepting, ∀ x, x ∈ a.run word ↔ x = state := by
  constructor
  · rintro ⟨state, reached, accepting⟩
    refine ⟨state, accepting, fun x => ⟨fun other => ?_, fun same => same ▸ reached⟩⟩
    exact run_unique deterministic word other reached
  · rintro ⟨state, accepting, only⟩
    exact ⟨state, (only state).mpr rfl, accepting⟩

/-- With one accepting state, all states that a word leads to accept if one of them does and
there is no other. -/
theorem all_accepting_iff_of_single {single : Nat} (only : a.accepting = [single])
    {word : List String} : (∀ state ∈ a.run word, state ∈ a.accepting) ↔
      a.Accepts word ∧ ∀ x ∈ a.run word, ∀ y ∈ a.run word, x = y := by
  constructor
  · intro all
    refine ⟨accepts_of_all all, fun x hx y hy => ?_⟩
    have hx := all x hx
    have hy := all y hy
    rw [only, List.mem_singleton] at hx hy
    exact hx.trans hy.symm
  · rintro ⟨⟨state, reached, accepting⟩, alone⟩ x hx
    rwa [alone x hx state reached]

/-- Transitions that follow one another, from one state to another. -/
def Path (a : Automaton) : Nat → List Transition → Nat → Prop
  | source, [], target => source = target
  | source, t :: ts, target => t ∈ a.transitions ∧ t.source = source ∧ a.Path t.target ts target

/-- The state that transitions lead to one after the other, whether or not they fit. -/
def endOf (source : Nat) (ts : List Transition) : Nat := ts.foldl (fun _ t => t.target) source

theorem path_append {source target : Nat} {ts us : List Transition} :
    a.Path source (ts ++ us) target ↔
      ∃ middle, a.Path source ts middle ∧ a.Path middle us target := by
  induction ts generalizing source with
  | nil => simp [Path]
  | cons t ts ih => simp only [List.cons_append, Path, ih]; tauto

theorem Path.eq_endOf {source target : Nat} {ts : List Transition} (h : a.Path source ts target) :
    target = endOf source ts := by
  induction ts generalizing source with
  | nil => exact h.symm
  | cons t ts ih => exact ih h.2.2

end Automaton

end AlignPlan
