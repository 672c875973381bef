import AlignPlan.Encoding.Replicated
import AlignPlan.Proofs.Automaton.Run
import AlignPlan.Proofs.Validation.WellFormed

/-! Where a constraint stands while an alignment goes on. Besides activities it may be told to
join: a constraint with several accepting states then leaves every accepting state for a joint
state, in which it hears nothing any more. -/
namespace AlignPlan

/-- What an alignment tells its constraints. -/
inductive Signal
  | activity (symbol : String)
  | join
  deriving DecidableEq

def Signal.activity? : Signal → Option String
  | .activity symbol => some symbol
  | .join => none

/-- The activities among some signals. -/
def heard (signals : List Signal) : List String := signals.filterMap Signal.activity?

/-- A state of a constraint, or `none` for its joint state. -/
abbrev Position := Option Nat

namespace Constraint

open Encoding.Replicated (needsJoint)

variable {c : Constraint}

/-- Where a position leads on a signal. -/
def successors (c : Constraint) : Signal → Position → List Position
  | .activity symbol, some state => (c.automaton.successors symbol state).map some
  | .join, some state =>
    if needsJoint c = true ∧ state ∈ c.automaton.accepting then [none] else []
  | _, none => []

/-- The current positions after some signals, from the initial state. -/
def positions (c : Constraint) (signals : List Signal) : List Position :=
  signals.foldl (fun current g => moveAll (c.successors g) current) [some c.automaton.start]

@[simp] theorem positions_nil : c.positions [] = [some c.automaton.start] := rfl

@[simp] theorem positions_concat (signals : List Signal) (g : Signal) :
    c.positions (signals ++ [g]) = moveAll (c.successors g) (c.positions signals) := by
  simp [positions, List.foldl_append]

@[simp] theorem heard_activity (signals : List Signal) (symbol : String) :
    heard (signals ++ [.activity symbol]) = heard signals ++ [symbol] := by
  simp [heard, Signal.activity?]

@[simp] theorem heard_join (signals : List Signal) :
    heard (signals ++ [.join]) = heard signals := by
  simp [heard, Signal.activity?]

theorem some_mem_successors_activity {symbol : String} {p : Position} {state : Nat} :
    some state ∈ c.successors (.activity symbol) p ↔
      ∃ source, p = some source ∧ state ∈ c.automaton.successors symbol source := by
  cases p <;> simp [successors]

/-- On an activity constraints follow their transitions. -/
theorem mem_successors_activity {symbol : String} {p q : Position} :
    q ∈ c.successors (.activity symbol) p ↔ ∃ t ∈ c.automaton.transitions,
      t.symbol = symbol ∧ p = some t.source ∧ q = some t.target := by
  constructor
  · intro next
    cases p with
    | none => simp [successors] at next
    | some source =>
      obtain ⟨target, reached, rfl⟩ := List.mem_map.mp next
      exact ⟨_, Automaton.mem_successors.mp reached, rfl, rfl, rfl⟩
  · rintro ⟨t, member, rfl, rfl, rfl⟩
    exact List.mem_map_of_mem (Automaton.mem_successors.mpr member)

theorem mem_successors_join {p q : Position} :
    q ∈ c.successors .join p ↔
      q = none ∧ needsJoint c = true ∧ ∃ state ∈ c.automaton.accepting, p = some state := by
  cases p with
  | none => simp [successors]
  | some state =>
    simp only [successors]
    split <;> simp_all

/-- Whether a constraint has a position. -/
def Has (c : Constraint) : Position → Prop
  | some state => state < c.automaton.size
  | none => needsJoint c = true

theorem has_of_mem_successors (valid : c.automaton.WellFormed .constraint) {g : Signal}
    {p q : Position} (h : q ∈ c.successors g p) : c.Has p ∧ c.Has q := by
  cases g with
  | activity symbol =>
    obtain ⟨t, member, _, rfl, rfl⟩ := mem_successors_activity.mp h
    obtain ⟨source, target, _⟩ := valid.transitions t member
    exact ⟨source, target⟩
  | join =>
    obtain ⟨rfl, several, state, accepting, rfl⟩ := mem_successors_join.mp h
    exact ⟨valid.accepting state accepting, several⟩

theorem has_of_mem_positions (valid : c.automaton.WellFormed .constraint)
    {signals : List Signal} {p : Position} (h : p ∈ c.positions signals) : c.Has p := by
  induction signals using List.reverseRecOn generalizing p with
  | nil =>
    obtain rfl := List.mem_singleton.mp h
    exact valid.start_lt
  | append_singleton signals g ih =>
    rw [positions_concat, mem_moveAll] at h
    rcases h with ⟨here, _⟩ | ⟨_, _, moved⟩
    · exact ih here
    · exact (has_of_mem_successors valid moved).2

theorem positions_ne_nil (signals : List Signal) : c.positions signals ≠ [] := by
  induction signals using List.reverseRecOn with
  | nil => simp
  | append_singleton signals g ih => rw [positions_concat]; exact moveAll_ne_nil ih

theorem successors_unique (deterministic : c.automaton.Deterministic) {g : Signal} {p : Position} :
    ∀ q ∈ c.successors g p, ∀ q' ∈ c.successors g p, q = q' := by
  intro q hq q' hq'
  cases g with
  | activity symbol =>
    obtain ⟨t, member, named, rfl, rfl⟩ := mem_successors_activity.mp hq
    obtain ⟨u, member', named', same, rfl⟩ := mem_successors_activity.mp hq'
    have targets := deterministic t member u member' (Option.some.inj same)
      (named.trans named'.symm)
    rw [targets]
  | join => rw [(mem_successors_join.mp hq).1, (mem_successors_join.mp hq').1]

/-- A deterministic constraint has one position at a time. -/
theorem positions_unique (deterministic : c.automaton.Deterministic) (signals : List Signal) :
    ∀ p ∈ c.positions signals, ∀ q ∈ c.positions signals, p = q := by
  induction signals using List.reverseRecOn with
  | nil => simp
  | append_singleton signals g ih =>
    rw [positions_concat]
    exact moveAll_unique ih fun _ _ => successors_unique deterministic

/-- Without a step to the joint state a constraint stands where its automaton does. -/
theorem positions_of_alone (signals : List Signal)
    (alone : needsJoint c = false ∨ Signal.join ∉ signals) :
    c.positions signals = (c.automaton.run (heard signals)).map some := by
  induction signals using List.reverseRecOn with
  | nil => simp [heard]
  | append_singleton signals g ih =>
    have before := ih (alone.imp_right fun h member => h (List.mem_append_left _ member))
    rw [positions_concat, before]
    cases g with
    | activity symbol =>
      rw [heard_activity, Automaton.run_concat]
      exact moveAll_map fun _ => rfl
    | join =>
      have single : needsJoint c = false := alone.resolve_right (by simp)
      rw [heard_join]
      apply moveAll_eq_self
      intro p _
      cases p <;> simp [successors, single]

/-- States left to a constraint are states of its run, whatever went to the joint state. -/
theorem mem_run_of_mem_positions {signals : List Signal} {state : Nat}
    (h : some state ∈ c.positions signals) : state ∈ c.automaton.run (heard signals) := by
  induction signals using List.reverseRecOn generalizing state with
  | nil => simpa [heard] using h
  | append_singleton signals g ih =>
    rw [positions_concat, mem_moveAll] at h
    cases g with
    | activity symbol =>
      rw [heard_activity, Automaton.run_concat, Automaton.advance, mem_moveAll]
      rcases h with ⟨here, stays⟩ | ⟨p, here, moved⟩
      · exact .inl ⟨ih here, by simpa [successors] using stays⟩
      · obtain ⟨source, rfl, reached⟩ := some_mem_successors_activity.mp moved
        exact .inr ⟨source, ih here, reached⟩
    | join =>
      rw [heard_join]
      rcases h with ⟨here, _⟩ | ⟨p, _, moved⟩
      · exact ih here
      · exact absurd (mem_successors_join.mp moved).1 (by simp)

/-- A constraint reaches its joint state by a join that found it in an accepting state. -/
theorem joined_of_none_mem_positions {signals : List Signal} (h : none ∈ c.positions signals) :
    needsJoint c = true ∧ ∃ before after, signals = before ++ .join :: after ∧
      ∃ state ∈ c.automaton.run (heard before), state ∈ c.automaton.accepting := by
  induction signals using List.reverseRecOn with
  | nil => simp at h
  | append_singleton signals g ih =>
    rw [positions_concat, mem_moveAll] at h
    have earlier : none ∈ c.positions signals ∨ g = .join ∧
        needsJoint c = true ∧
          ∃ state ∈ c.automaton.accepting, some state ∈ c.positions signals := by
      rcases h with ⟨here, _⟩ | ⟨p, here, moved⟩
      · exact .inl here
      · cases g with
        | activity symbol => cases p <;> simp [successors] at moved
        | join =>
          obtain ⟨_, several, state, accepting, rfl⟩ := mem_successors_join.mp moved
          exact .inr ⟨rfl, several, state, accepting, here⟩
    rcases earlier with here | ⟨rfl, several, state, accepting, here⟩
    · obtain ⟨several, before, after, rfl, found⟩ := ih here
      exact ⟨several, before, after ++ [g], by simp, found⟩
    · exact ⟨several, signals, [], rfl, state, mem_run_of_mem_positions here, accepting⟩

end Constraint

end AlignPlan
