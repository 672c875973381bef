import AlignPlan.Proofs.Automaton.Run
import Mathlib.Data.List.Nodup

/-! Shapes of automata that leave little choice to their paths: no path of an acyclic automaton
comes back, and the transitions of a linear one form a single path. -/
namespace AlignPlan.Automaton

variable {a : Automaton} {line : List Transition}

/-- No state can be left and reached again. -/
def Acyclic (a : Automaton) : Prop := ∀ state ts, a.Path state ts state → ts = []

/-- Where transitions go up, so do paths. -/
theorem Path.increasing (up : ∀ t ∈ a.transitions, t.source < t.target) {source target : Nat}
    {ts : List Transition} (path : a.Path source ts target) : source + ts.length ≤ target := by
  induction ts generalizing source with
  | nil => exact Nat.le_of_eq path
  | cons t ts ih =>
    obtain ⟨member, rfl, rest⟩ := path
    have first := up t member
    have later := ih rest
    rw [List.length_cons]
    omega

theorem acyclic_of_increasing (up : ∀ t ∈ a.transitions, t.source < t.target) : a.Acyclic := by
  intro state ts path
  have length := path.increasing up
  exact List.length_eq_zero_iff.mp (by omega)

/-- The transitions form one line through different states, from the initial state to the first
accepting state. -/
structure Linear (a : Automaton) (line : List Transition) : Prop where
  path : a.Path a.start line a.firstAccepting
  complete : ∀ t ∈ a.transitions, t ∈ line
  distinct : (a.start :: line.map Transition.target).Nodup

/-- The states on a path, read off the sources or off the targets of its transitions. -/
theorem Path.visited {source target : Nat} {ts : List Transition}
    (path : a.Path source ts target) :
    ts.map Transition.source ++ [target] = source :: ts.map Transition.target := by
  induction ts generalizing source with
  | nil => rw [show source = target from path]; rfl
  | cons t ts ih =>
    obtain ⟨_, rfl, rest⟩ := path
    rw [List.map_cons, List.cons_append, ih rest, List.map_cons]

/-- Paths to one state agree if no state has two transitions and the last one has none. -/
theorem Path.unique (single : ∀ t ∈ a.transitions, ∀ u ∈ a.transitions,
      t.source = u.source → t = u) {source target : Nat}
    (last : ∀ t ∈ a.transitions, t.source ≠ target) {ts us : List Transition}
    (first : a.Path source ts target) (second : a.Path source us target) : ts = us := by
  induction ts generalizing source us with
  | nil =>
    cases us with
    | nil => rfl
    | cons u us =>
      obtain rfl : source = target := first
      exact absurd second.2.1 (last u second.1)
  | cons t ts ih =>
    obtain ⟨member, rfl, rest⟩ := first
    cases us with
    | nil => exact absurd second (last t member)
    | cons u us =>
      obtain ⟨member', same, rest'⟩ := second
      obtain rfl := single u member' t member same
      rw [ih rest rest']

/-- The line is the only way to the accepting state. -/
theorem Linear.eq_of_path (linear : a.Linear line) {ts : List Transition}
    (path : a.Path a.start ts a.firstAccepting) : ts = line := by
  have sources : (line.map Transition.source ++ [a.firstAccepting]).Nodup := by
    rw [linear.path.visited]
    exact linear.distinct
  obtain ⟨apart, _, ends⟩ := List.nodup_append.mp sources
  refine path.unique (fun t member u member' same => ?_) (fun t member same => ?_) linear.path
  · exact List.inj_on_of_nodup_map apart (linear.complete t member) (linear.complete u member') same
  · exact ends _ (List.mem_map_of_mem (linear.complete t member)) _ (List.mem_singleton_self _) same

end AlignPlan.Automaton
