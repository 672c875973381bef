import AlignPlan.Encoding
import AlignPlan.Proofs.Automaton.Shape
import AlignPlan.Proofs.Constraint.Positions
import AlignPlan.Proofs.Planning.Semantics

/-! The moves of an alignment and where they lead, without a planning task: a pointer into the
trace, what the constraints were told, and the cost so far. -/
namespace AlignPlan

/-- A move names states of the trace and an activity, not necessarily a transition of the
trace. -/
inductive Move
  | sync (t : Transition)
  | add (symbol : String)
  /-- An insertion next to a transition of the trace, which is not taken. -/
  | addAlong (t : Transition)
  | del (t : Transition)
  | join
  deriving DecidableEq

/-- A transition as the objects that stand for its parts. -/
def Automaton.transitionObjects (a : Automaton) (t : Transition) : List String :=
  [a.traceObject t.source, t.symbol, a.traceObject t.target]

namespace Move

/-- The planning step of a move on a trace. -/
def step (trace : Automaton) : Move → Planning.Step
  | .sync t => ⟨"sync", trace.transitionObjects t⟩
  | .add symbol => ⟨"add", [symbol]⟩
  | .addAlong t => ⟨"add", trace.transitionObjects t⟩
  | .del t => ⟨"del", trace.transitionObjects t⟩
  | .join => ⟨"goto-goal", [trace.traceObject trace.firstAccepting, dummyName]⟩

/-- The transition of the trace that a move takes. -/
def taken? : Move → Option Transition
  | .sync t | .del t => some t
  | .add _ | .addAlong _ | .join => none

/-- What a move tells the constraints. -/
def signal? : Move → Option Signal
  | .sync t | .addAlong t => some (.activity t.symbol)
  | .add symbol => some (.activity symbol)
  | .del _ => none
  | .join => some .join

/-- The activity that a move synchronizes or inserts. -/
def activity? (m : Move) : Option String := m.signal?.bind Signal.activity?

/-- Insertions and deletions are what an alignment pays for. -/
def isEdit : Move → Bool
  | .add _ | .addAlong _ | .del _ => true
  | .sync _ | .join => false

end Move

/-- The transitions of the trace that some moves take. -/
def taken (moves : List Move) : List Transition := moves.filterMap Move.taken?

def signals (moves : List Move) : List Signal := moves.filterMap Move.signal?

/-- The activities that some moves synchronize or insert. -/
def activitiesOf (moves : List Move) : List String := moves.filterMap Move.activity?

theorem taken_concat (moves : List Move) (m : Move) :
    taken (moves ++ [m]) = taken moves ++ m.taken?.toList := by
  cases taken : m.taken? <;> simp [AlignPlan.taken, taken]

theorem signals_concat (moves : List Move) (m : Move) :
    signals (moves ++ [m]) = signals moves ++ m.signal?.toList := by
  cases told : m.signal? <;> simp [signals, told]

theorem heard_signals (moves : List Move) : heard (signals moves) = activitiesOf moves := by
  simp only [heard, signals, activitiesOf, List.filterMap_filterMap]
  rfl

theorem join_mem_signals {moves : List Move} : .join ∈ signals moves ↔ .join ∈ moves := by
  simp only [signals, List.mem_filterMap]
  constructor
  · rintro ⟨m, member, told⟩
    cases m <;> simp [Move.signal?] at told
    exact member
  · intro member
    exact ⟨.join, member, rfl⟩

/-- A join among the signals comes from a join among the moves. -/
theorem join_of_signals_eq {moves : List Move} {before after : List Signal}
    (split : signals moves = before ++ .join :: after) :
    ∃ first rest, moves = first ++ .join :: rest ∧ signals first = before := by
  obtain ⟨first, rest, rfl, told, later⟩ := List.filterMap_eq_append_iff.mp split
  obtain ⟨silent, m, rest, rfl, quiet, joins, _⟩ := List.filterMap_eq_cons_iff.mp later
  obtain rfl : m = .join := by cases m <;> simp [Move.signal?] at joins; rfl
  refine ⟨first ++ silent, rest, by simp, ?_⟩
  have nothing : signals silent = [] := by simpa [signals, List.filterMap_eq_nil_iff] using quiet
  rw [← told]
  simpa [signals, List.filterMap_append] using nothing

theorem activitiesOf_append (moves rest : List Move) :
    activitiesOf (moves ++ rest) = activitiesOf moves ++ activitiesOf rest := List.filterMap_append

theorem activitiesOf_cons_join (moves : List Move) :
    activitiesOf (.join :: moves) = activitiesOf moves := rfl

theorem taken_cons_join (moves : List Move) : taken (.join :: moves) = taken moves := rfl

/-- Without edits the activities are those of the transitions taken. -/
theorem activitiesOf_of_no_edits {moves : List Move} (none : ∀ m ∈ moves, m.isEdit = false) :
    activitiesOf moves = (taken moves).map Transition.symbol := by
  induction moves with
  | nil => rfl
  | cons m moves ih =>
    obtain ⟨first, rest⟩ := List.forall_mem_cons.mp none
    have rest := ih rest
    cases m with
    | sync t =>
      simp only [activitiesOf, taken] at rest ⊢
      simpa [Move.activity?, Move.signal?, Signal.activity?, Move.taken?] using rest
    | join => rw [activitiesOf_cons_join, taken_cons_join, rest]
    | add | addAlong | del => contradiction

def withoutJoins (moves : List Move) : List Move := moves.filter fun m => m ≠ .join

theorem join_not_mem_withoutJoins (moves : List Move) : .join ∉ withoutJoins moves := by
  simp [withoutJoins]

theorem withoutJoins_concat_join (moves : List Move) :
    withoutJoins (moves ++ [.join]) = withoutJoins moves := by simp [withoutJoins]

theorem withoutJoins_concat {m : Move} (other : m ≠ .join) (moves : List Move) :
    withoutJoins (moves ++ [m]) = withoutJoins moves ++ [m] := by simp [withoutJoins, other]

/-- What a join does not contribute to does not change without joins. -/
theorem filterMap_withoutJoins {α : Type} {f : Move → Option α} (nothing : f .join = none)
    (moves : List Move) : (withoutJoins moves).filterMap f = moves.filterMap f := by
  rw [withoutJoins, List.filterMap_filter]
  refine List.filterMap_congr fun m _ => ?_
  cases m <;> simp [nothing]

theorem taken_withoutJoins (moves : List Move) : taken (withoutJoins moves) = taken moves :=
  filterMap_withoutJoins rfl moves

theorem activitiesOf_withoutJoins (moves : List Move) :
    activitiesOf (withoutJoins moves) = activitiesOf moves :=
  filterMap_withoutJoins rfl moves

theorem edits_withoutJoins (moves : List Move) :
    (withoutJoins moves).countP Move.isEdit = moves.countP Move.isEdit := by
  simp only [withoutJoins, List.countP_filter]
  refine List.countP_congr fun m _ => ?_
  cases m <;> simp [Move.isEdit]

/-- What an encoding lets the moves of an alignment do. -/
structure Rules where
  trace : Automaton
  activities : List String
  policy : AddPolicy
  /-- The cost of a join, where there is such a move. -/
  joinCost : Option Nat

/-- How far an alignment has come. -/
structure Standing where
  trace : Nat
  signals : List Signal
  cost : Nat

namespace Rules

/-- Whether a move may be made with the trace at a state. -/
def Allows (r : Rules) (state : Nat) : Move → Prop
  | .sync t | .del t => t ∈ r.trace.transitions ∧ t.source = state
  | .add symbol => r.policy = .unconstrained ∧ symbol ∈ r.activities
  | .addAlong t => r.policy = .traceGuarded ∧ t ∈ r.trace.transitions ∧ t.source = state
  | .join => r.joinCost.isSome = true ∧ state = r.trace.firstAccepting

def cost (r : Rules) : Move → Nat
  | .sync _ => 0
  | .add _ | .addAlong _ | .del _ => 1
  | .join => r.joinCost.getD 0

/-- Where a move leads, whether or not it may be made. -/
def advance (r : Rules) (s : Standing) (m : Move) : Standing :=
  ⟨m.taken?.elim s.trace Transition.target, s.signals ++ m.signal?.toList, s.cost + r.cost m⟩

def start (r : Rules) : Standing := ⟨r.trace.start, [], 0⟩

/-- Where moves lead from the start, whether or not they may be made. -/
def after (r : Rules) (moves : List Move) : Standing :=
  ⟨Automaton.endOf r.trace.start (taken moves), signals moves, (moves.map r.cost).sum⟩

theorem after_concat (r : Rules) (moves : List Move) (m : Move) :
    r.after (moves ++ [m]) = r.advance (r.after moves) m := by
  cases taken : m.taken? <;>
    simp [after, advance, taken_concat, signals_concat, Automaton.endOf, taken]

/-- Moves can be made one after the other if each may be made where the ones before it lead. -/
def Legal (r : Rules) (moves : List Move) : Prop :=
  ∀ before m rest, moves = before ++ m :: rest → r.Allows (r.after before).trace m

theorem legal_concat {r : Rules} {moves : List Move} {m : Move} :
    r.Legal (moves ++ [m]) ↔ r.Legal moves ∧ r.Allows (r.after moves).trace m := by
  constructor
  · intro legal
    exact ⟨fun before x rest same => legal before x (rest ++ [m]) (by simp [same]),
      legal moves m [] rfl⟩
  · rintro ⟨legal, allowed⟩ before x rest same
    rcases List.eq_nil_or_concat rest with rfl | ⟨rest, y, rfl⟩
    · obtain ⟨rfl, rfl⟩ : moves = before ∧ m = x := by simpa using List.append_inj' same rfl
      exact allowed
    · have same : moves ++ [m] = (before ++ x :: rest) ++ [y] := by simpa using same
      exact legal before x rest (List.append_inj_left' same rfl)

theorem Legal.allows {r : Rules} {moves : List Move} (legal : r.Legal moves) {m : Move}
    (member : m ∈ moves) : ∃ before, r.Allows (r.after before).trace m := by
  obtain ⟨before, rest, same⟩ := List.append_of_mem member
  exact ⟨before, legal before m rest same⟩

/-- The moves on the trace follow its transitions. -/
theorem Legal.path {r : Rules} {moves : List Move} (legal : r.Legal moves) :
    r.trace.Path r.trace.start (taken moves) (r.after moves).trace := by
  induction moves using List.reverseRecOn with
  | nil => rfl
  | append_singleton moves m ih =>
    obtain ⟨before, allowed⟩ := legal_concat.mp legal
    rw [taken_concat, Automaton.path_append, after_concat]
    refine ⟨_, ih before, ?_⟩
    cases m with
    | sync t => exact ⟨allowed.1, allowed.2, rfl⟩
    | del t => exact ⟨allowed.1, allowed.2, rfl⟩
    | add _ => rfl
    | addAlong _ => rfl
    | join => rfl

/-- If no path comes back, no transition is taken between a join and the end of the trace. -/
theorem Legal.taken_nil_after_join {r : Rules} {before after : List Move}
    (acyclic : r.trace.Acyclic) (legal : r.Legal (before ++ .join :: after))
    (done : (r.after (before ++ .join :: after)).trace = r.trace.firstAccepting) :
    taken after = [] := by
  have here := (legal before .join after rfl).2
  have path := legal.path
  have split : taken (before ++ .join :: after) = taken before ++ taken after := by
    simp [taken, List.filterMap_cons, Move.taken?]
  rw [split, done, Automaton.path_append] at path
  obtain ⟨middle, front, back⟩ := path
  have start : middle = r.trace.firstAccepting := front.eq_endOf.trans here
  exact acyclic _ _ (start ▸ back)

theorem Legal.left {r : Rules} {moves more : List Move} (legal : r.Legal (moves ++ more)) :
    r.Legal moves :=
  fun before m rest same => legal before m (rest ++ more) (by simp [same])

theorem Legal.join_not_mem {r : Rules} {moves : List Move} (legal : r.Legal moves)
    (unpriced : r.joinCost = none) : .join ∉ moves := by
  intro member
  obtain ⟨_, priced, _⟩ := legal.allows member
  simp [unpriced] at priced

/-- Without joins, moves are legal and lead to a state of the trace if those on the trace are a
path to this state and every insertion is made where its transition starts. -/
theorem legal_iff_path {r : Rules} {moves : List Move} {target : Nat} (alone : .join ∉ moves)
    (adds : ∀ symbol, .add symbol ∈ moves → r.policy = .unconstrained ∧ symbol ∈ r.activities)
    (alongs : ∀ t, .addAlong t ∈ moves → r.policy = .traceGuarded) :
    r.Legal moves ∧ (r.after moves).trace = target ↔
      r.trace.Path r.trace.start (taken moves) target ∧
      ∀ before t rest, moves = before ++ .addAlong t :: rest →
        t ∈ r.trace.transitions ∧ r.trace.Path r.trace.start (taken before) t.source := by
  constructor
  · rintro ⟨legal, rfl⟩
    refine ⟨legal.path, ?_⟩
    rintro before t rest rfl
    obtain ⟨_, member, here⟩ := legal before _ rest rfl
    exact ⟨member, here ▸ legal.left.path⟩
  · rintro ⟨path, guarded⟩
    refine ⟨?_, path.eq_endOf.symm⟩
    rintro before m rest rfl
    have onTrace {t : Transition} (takes : m.taken? = some t) :
        t ∈ r.trace.transitions ∧ t.source = (r.after before).trace := by
      have split : taken (before ++ m :: rest) = taken before ++ t :: taken rest := by
        simp [taken, takes]
      rw [split, Automaton.path_append] at path
      obtain ⟨_, front, member, here, _⟩ := path
      exact ⟨member, here.trans front.eq_endOf⟩
    cases m with
    | sync t => exact onTrace rfl
    | del t => exact onTrace rfl
    | add symbol => exact adds symbol (by simp)
    | addAlong t =>
      obtain ⟨member, here⟩ := guarded before t rest rfl
      exact ⟨alongs t (by simp), member, here.eq_endOf⟩
    | join => exact absurd (by simp) alone

/-- Joins change nothing for the moves after them. -/
theorem Legal.withoutJoins {r : Rules} {moves : List Move} (legal : r.Legal moves) :
    r.Legal (withoutJoins moves) := by
  induction moves using List.reverseRecOn with
  | nil => exact legal
  | append_singleton moves m ih =>
    obtain ⟨before, allowed⟩ := legal_concat.mp legal
    by_cases joins : m = .join
    · rw [joins, withoutJoins_concat_join]
      exact ih before
    · rw [withoutJoins_concat joins, legal_concat]
      refine ⟨ih before, ?_⟩
      simpa [after, taken_withoutJoins] using allowed

/-- Edits cost one and joins their own price. -/
theorem after_cost (r : Rules) (moves : List Move) : (r.after moves).cost =
    moves.countP Move.isEdit + r.joinCost.getD 0 * moves.count .join := by
  simp only [after]
  induction moves with
  | nil => rfl
  | cons m moves ih =>
    rw [List.map_cons, List.sum_cons, ih, List.countP_cons, List.count_cons]
    cases m <;> simp [cost, Move.isEdit, Nat.mul_add] <;> omega

theorem after_cost_of_alone (r : Rules) {moves : List Move} (alone : .join ∉ moves) :
    (r.after moves).cost = moves.countP Move.isEdit := by
  simp [after_cost, List.count_eq_zero.mpr alone]

/-- Rules that differ in the price of a join agree on all other moves. -/
theorem legal_congr {r r' : Rules} {moves : List Move} (trace : r.trace = r'.trace)
    (activities : ∀ symbol, symbol ∈ r.activities ↔ symbol ∈ r'.activities)
    (policy : r.policy = r'.policy) (alone : .join ∉ moves) : r.Legal moves ↔ r'.Legal moves := by
  refine forall_congr' fun before => forall₃_congr fun m rest same => ?_
  have other : m ≠ .join := by
    rintro rfl
    exact alone (by simp [same])
  cases m <;> simp_all [Allows, after]

end Rules

end AlignPlan
