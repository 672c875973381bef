import AlignPlan.Proofs.Alignment.Moves
import AlignPlan.Proofs.Encoding.Accepted
import AlignPlan.Proofs.Encoding.Steps

/-! How planning states show how far an alignment has come: one fact for the current state of
the trace and one for every current position of every constraint. All other facts stay as they
are in the initial state. -/
namespace AlignPlan.Encoding

open Planning

def task (e : Encoding) (traceId : Nat) : Task := ⟨e.domain, e.problem traceId⟩

def vocabulary (e : Encoding) : Vocabulary :=
  match e.strategy with
  | .replicated => Replicated.vocabulary
  | .shared => Shared.vocabulary

/-- The objects that stand for a position of a constraint. The shared encoding has none for a
joint state and never gets there. -/
def place (e : Encoding) (c : Constraint) : Position → List String
  | some state =>
    match e.strategy with
    | .replicated => [Replicated.stateObject c state]
    | .shared => [Shared.automatonObject c, Shared.pooled state]
  | none =>
    match e.strategy with
    | .replicated => [Replicated.jointObject c]
    | .shared => [Shared.automatonObject c]

/-- The fact that the trace is at a state. -/
def traceFact (e : Encoding) (state : Nat) : Atom :=
  ⟨e.vocabulary.traceCurrent, [e.trace.traceObject state]⟩

/-- The fact that a constraint is at a position. -/
def constraintFact (e : Encoding) (c : Constraint) (p : Position) : Atom :=
  ⟨"cur_state", e.place c p⟩

/-- The facts that planning steps change. -/
def IsCurrent (a : Atom) : Prop := a.predicate = "cur_state" ∨ a.predicate = "cur_state_trace"

def rules (e : Encoding) : Rules where
  trace := e.trace
  activities := activities e.trace e.constraints
  policy := e.options.addPolicy
  joinCost :=
    match e.strategy with
    | .replicated => some e.options.gotoGoalCost.amount
    | .shared => none

variable {e : Encoding} {traceId : Nat} {m : Standing} {s : State} {changes : List Change}

/-- The objects of a type are those registered for it. -/
theorem Accepted.mem_members (valid : e.Accepted) {type object : String} (named : type ≠ "object")
    (leaf : ∀ g ∈ (e.task traceId).domain.types, g.type ≠ some type) :
    object ∈ (e.task traceId).members (some type) ↔
      ∃ r ∈ e.strategy.registrations e.trace e.constraints,
        r.type = type ∧ r.name.render = object := by
  have admits (t : String) : (e.task traceId).domain.admits (some type) t = true ↔ t = type :=
    Domain.admits_of_leaf named leaf
  have objects : (e.task traceId).problem.objects = e.table.objects := rfl
  simp only [Task.mem_members, objects, valid.objects, List.mem_map, admits]
  constructor
  · rintro ⟨_, ⟨r, member, rfl⟩, typed, rendered⟩
    exact ⟨r, member, typed, rendered⟩
  · rintro ⟨r, member, typed, rendered⟩
    exact ⟨_, ⟨r, member, rfl⟩, typed, rendered⟩

theorem isCurrent_traceFact (state : Nat) : IsCurrent (e.traceFact state) := by
  unfold traceFact vocabulary
  cases e.strategy
  · exact .inl rfl
  · exact .inr rfl

theorem isCurrent_constraintFact (c : Constraint) (p : Position) :
    IsCurrent (e.constraintFact c p) := .inl rfl

/-- Different states and positions have different facts. -/
structure Named (e : Encoding) : Prop where
  trace : ∀ {j k}, k < e.trace.size → e.trace.traceObject j = e.trace.traceObject k → j = k
  constraint : ∀ {c d p q}, c ∈ e.constraints → d ∈ e.constraints → c.Has p → d.Has q →
    e.constraintFact c p = e.constraintFact d q → c = d ∧ p = q
  apart : ∀ {k c p}, c ∈ e.constraints → c.Has p → e.traceFact k ≠ e.constraintFact c p

/-- A planning state shows a standing. -/
structure Shows (e : Encoding) (traceId : Nat) (m : Standing) (s : State) : Prop where
  within : m.trace < e.trace.size
  current : ∀ a, IsCurrent a → (a ∈ s ↔ a = e.traceFact m.trace ∨
    ∃ c ∈ e.constraints, ∃ p ∈ c.positions m.signals, a = e.constraintFact c p)
  fixed : ∀ a, ¬IsCurrent a → (a ∈ s ↔ a ∈ (e.task traceId).init)
  cost : s.value totalCost = m.cost

/-- Changes that move every constraint on a signal. -/
structure Broadcasts (e : Encoding) (told : List Signal) (g : Signal)
    (changes : List Change) : Prop where
  add : ∀ a, .add a ∈ changes ↔ ∃ c ∈ e.constraints, ∃ p ∈ c.positions told,
    ∃ q ∈ c.successors g p, a = e.constraintFact c q
  delete : ∀ a, .delete a ∈ changes ↔ ∃ c ∈ e.constraints, ∃ p ∈ c.positions told,
    c.successors g p ≠ [] ∧ a = e.constraintFact c p
  raise : ∀ fluent amount, .raise fluent amount ∉ changes

/-- Conditional effects say it with one pair of changes for every transition that is taken. -/
theorem Broadcasts.of_mem {told : List Signal} {g : Signal}
    (moved : ∀ change, change ∈ changes ↔ ∃ c ∈ e.constraints, ∃ p ∈ c.positions told,
      ∃ q ∈ c.successors g p,
        change = .delete (e.constraintFact c p) ∨ change = .add (e.constraintFact c q)) :
    e.Broadcasts told g changes := by
  refine ⟨fun a => ?_, fun a => ?_, fun fluent amount raised => ?_⟩
  · simp [moved]
  · simp only [moved, Change.delete.injEq, reduceCtorEq, or_false]
    constructor
    · rintro ⟨c, member, p, here, q, next, same⟩
      exact ⟨c, member, p, here, List.ne_nil_of_mem next, same⟩
    · rintro ⟨c, member, p, here, moves, same⟩
      obtain ⟨q, next⟩ := List.exists_mem_of_ne_nil _ moves
      exact ⟨c, member, p, here, q, next, same⟩
  · simp [moved] at raised

theorem Named.traceFact_inj (named : e.Named) {j k : Nat} (bound : k < e.trace.size)
    (same : e.traceFact j = e.traceFact k) : j = k := by
  apply named.trace bound
  simpa [traceFact] using same

theorem Shows.traceFact_mem (named : e.Named) (valid : e.Accepted) (h : e.Shows traceId m s)
    {k : Nat} : e.traceFact k ∈ s ↔ k = m.trace := by
  rw [h.current _ (isCurrent_traceFact k)]
  constructor
  · rintro (same | ⟨c, member, p, here, same⟩)
    · exact named.traceFact_inj h.within same
    · exact absurd same
        (named.apart member (Constraint.has_of_mem_positions (valid.constraints c member) here))
  · rintro rfl
    exact .inl rfl

theorem Shows.constraintFact_mem (named : e.Named) (valid : e.Accepted) (h : e.Shows traceId m s)
    {c : Constraint} (member : c ∈ e.constraints) {p : Position} (has : c.Has p) :
    e.constraintFact c p ∈ s ↔ p ∈ c.positions m.signals := by
  rw [h.current _ (isCurrent_constraintFact c p)]
  constructor
  · rintro (same | ⟨d, other, q, here, same⟩)
    · exact absurd same.symm (named.apart member has)
    · have owns := Constraint.has_of_mem_positions (valid.constraints d other) here
      obtain ⟨rfl, rfl⟩ := named.constraint member other has owns same
      exact here
  · intro here
    exact .inr ⟨c, member, p, here, rfl⟩

/-- The trace moves to another state and nothing else changes. -/
theorem Shows.moveTrace (named : e.Named) (valid : e.Accepted) (h : e.Shows traceId m s) {k : Nat}
    (bound : k < e.trace.size) :
    e.Shows traceId { m with trace := k }
      (s.apply [.delete (e.traceFact m.trace), .add (e.traceFact k)]) := by
  refine ⟨bound, ?_, ?_, ?_⟩
  · intro a current
    simp only [State.mem_apply, h.current a current, List.mem_cons, List.not_mem_nil, or_false,
      reduceCtorEq, false_or, Change.delete.injEq, Change.add.injEq]
    constructor
    · rintro (⟨old | old, kept⟩ | new)
      · exact absurd old kept
      · exact .inr old
      · exact .inl new
    · rintro (new | ⟨c, member, p, here, rfl⟩)
      · exact .inr new
      · have has := Constraint.has_of_mem_positions (valid.constraints c member) here
        exact .inl ⟨.inr ⟨c, member, p, here, rfl⟩, fun same => named.apart member has same.symm⟩
  · intro a still
    have old : a ≠ e.traceFact m.trace := fun same => still (same ▸ isCurrent_traceFact _)
    have new : a ≠ e.traceFact k := fun same => still (same ▸ isCurrent_traceFact _)
    simp [State.mem_apply, h.fixed a still, old, new]
  · simp [State.apply, Change.amount, h.cost]

theorem Shows.charge (h : e.Shows traceId m s) (amount : Nat) :
    e.Shows traceId { m with cost := m.cost + amount } (s.apply [.raise totalCost amount]) := by
  refine ⟨h.within, ?_, ?_, ?_⟩
  · intro a current
    simpa [State.mem_apply] using h.current a current
  · intro a still
    simpa [State.mem_apply] using h.fixed a still
  · simp [State.apply, Change.amount, h.cost]

theorem Broadcasts.amount_eq_zero {told : List Signal} {g : Signal}
    (b : e.Broadcasts told g changes) (fluent : String) :
    (changes.map (Change.amount fluent)).sum = 0 := by
  rw [List.sum_eq_zero_iff_forall_eq_nat]
  intro n member
  obtain ⟨change, listed, rfl⟩ := List.mem_map.mp member
  cases change with
  | raise f n => exact absurd listed (b.raise f n)
  | add | delete => rfl

/-- Every constraint moves on a signal and nothing else changes. -/
theorem Shows.broadcast (named : e.Named) (valid : e.Accepted) (h : e.Shows traceId m s)
    {g : Signal} (b : e.Broadcasts m.signals g changes) :
    e.Shows traceId { m with signals := m.signals ++ [g] } (s.apply changes) := by
  have has {c p} (member : c ∈ e.constraints) (here : p ∈ c.positions m.signals) : c.Has p :=
    Constraint.has_of_mem_positions (valid.constraints c member) here
  refine ⟨h.within, ?_, ?_, ?_⟩
  · intro a current
    simp only [State.mem_apply, h.current a current, b.add, Constraint.positions_concat,
      mem_moveAll]
    constructor
    · rintro (⟨rfl | ⟨c, member, p, here, rfl⟩, kept⟩ | ⟨c, member, p, here, q, moved, rfl⟩)
      · exact .inl rfl
      · have stays : c.successors g p = [] := by
          by_contra moves
          exact kept ((b.delete _).mpr ⟨c, member, p, here, moves, rfl⟩)
        exact .inr ⟨c, member, p, .inl ⟨here, stays⟩, rfl⟩
      · exact .inr ⟨c, member, q, .inr ⟨p, here, moved⟩, rfl⟩
    -- A position that is left and entered at once is current afterwards: adding wins.
    · rintro (rfl | ⟨c, member, q, ⟨here, stays⟩ | ⟨p, here, moved⟩, rfl⟩)
      · refine .inl ⟨.inl rfl, fun deleted => ?_⟩
        obtain ⟨d, other, p, there, _, same⟩ := (b.delete _).mp deleted
        exact named.apart other (has other there) same
      · refine .inl ⟨.inr ⟨c, member, q, here, rfl⟩, fun deleted => ?_⟩
        obtain ⟨d, other, p, there, moves, same⟩ := (b.delete _).mp deleted
        obtain ⟨rfl, rfl⟩ :=
          named.constraint member other (has member here) (has other there) same
        exact moves stays
      · exact .inr ⟨c, member, p, here, q, moved, rfl⟩
  · intro a still
    have kept : Change.delete a ∉ changes := by
      intro deleted
      obtain ⟨c, _, p, _, _, rfl⟩ := (b.delete a).mp deleted
      exact still (isCurrent_constraintFact c p)
    have unadded : Change.add a ∉ changes := by
      intro added
      obtain ⟨c, _, _, _, q, _, rfl⟩ := (b.add a).mp added
      exact still (isCurrent_constraintFact c q)
    simp [State.mem_apply, h.fixed a still, kept, unadded]
  · simp [State.apply, b.amount_eq_zero, h.cost]

/-- Other changes may come first, if they add no fact of a constraint. -/
theorem Shows.broadcast_after (named : e.Named) (valid : e.Accepted) {first : List Change}
    {told : List Signal} {g : Signal} (h : e.Shows traceId m (s.apply first))
    (same : m.signals = told) (apart : ∀ a, .add a ∈ first → ∃ k, a = e.traceFact k)
    (b : e.Broadcasts told g changes) :
    e.Shows traceId { m with signals := told ++ [g] } (s.apply (first ++ changes)) := by
  subst same
  rw [State.apply_append]
  · exact h.broadcast named valid b
  · intro a added deleted
    obtain ⟨k, rfl⟩ := apart a added
    obtain ⟨c, member, p, here, _, same⟩ := (b.delete _).mp deleted
    have has := Constraint.has_of_mem_positions (valid.constraints c member) here
    exact named.apart member has same

end AlignPlan.Encoding
