import AlignPlan.Proofs.Encoding.CurrentStates
import AlignPlan.Proofs.Planning.Congruence
import Mathlib.Data.Nat.Find
import Mathlib.Data.Option.Basic
import Mathlib.Order.Bounds.Basic

/-! What the options of an encoding change. The problem is the same for all of them. The guard of
insertions takes plans away and leaves the states of all others as they are, and the price of the
step into the joint states is paid for each such step. -/
namespace AlignPlan.Encoding

open Planning

variable {e : Encoding} {traceId : Nat} {s s' : State}

/-- An encoding with other options. -/
def withOptions (e : Encoding) (options : Options) : Encoding := { e with options }

theorem problem_withOptions (e : Encoding) (options : Options) :
    (e.withOptions options).problem traceId = e.problem traceId := rfl

theorem domain_withOptions (e : Encoding) (options : Options) :
    ((e.withOptions options).task traceId).domain = e.strategy.domain options := rfl

theorem members_withOptions (e : Encoding) (options : Options) (type : Option String) :
    ((e.withOptions options).task traceId).members type = (e.task traceId).members type := by
  cases e with
  | mk strategy => cases strategy <;> rfl

/-- All actions depend on facts alone. -/
theorem readsFacts_of_mem (strategy : Strategy) (options : Options) :
    ∀ action ∈ (strategy.domain options).actions, action.readsFacts = true := by
  rw [← List.all_eq_true]
  obtain ⟨policy, cost, _⟩ := options
  cases strategy <;> cases policy <;> cases cost <;> rfl

/-- Only insertions depend on the policy. -/
theorem action?_addPolicy (strategy : Strategy) (policy policy' : AddPolicy) (cost : GotoGoalCost)
    (reuse reuse' : Bool) {name : String} (other : name ≠ "add") :
    (strategy.domain ⟨policy, cost, reuse⟩).action? name =
      (strategy.domain ⟨policy', cost, reuse'⟩).action? name := by
  have insertion (v : Vocabulary) (policy : AddPolicy) : ((v.add policy).name == name) = false := by
    simpa [Vocabulary.add] using other.symm
  cases strategy <;>
    simp [Strategy.domain, Domain.action?, Replicated.domain, Shared.domain, List.find?_cons,
      insertion]

/-- Only the step into the joint states depends on its price. -/
theorem action?_gotoGoalCost (strategy : Strategy) (policy : AddPolicy)
    (cost cost' : GotoGoalCost) (reuse reuse' : Bool) {name : String} (other : name ≠ "goto-goal") :
    (strategy.domain ⟨policy, cost, reuse⟩).action? name =
      (strategy.domain ⟨policy, cost', reuse'⟩).action? name := by
  have join (cost : GotoGoalCost) : ((Replicated.gotoGoal cost).name == name) = false := by
    simpa [Replicated.gotoGoal] using other.symm
  cases strategy <;>
    simp [Strategy.domain, Domain.action?, Replicated.domain, Shared.domain, List.find?_cons, join]

/-- An insertion that names its activity alone in place of one that names a transition. -/
def loosen (step : Step) : Step :=
  match step.action, step.arguments with
  | "add", [_, symbol, _] => ⟨"add", [symbol]⟩
  | _, _ => step

theorem loosen_add (source symbol target : String) :
    loosen ⟨"add", [source, symbol, target]⟩ = ⟨"add", [symbol]⟩ := rfl

theorem loosen_of_ne {step : Step} (other : step.action ≠ "add") : loosen step = step := by
  unfold loosen
  split
  next insertion _ => exact absurd insertion other
  next => rfl

theorem action_loosen (step : Step) : (loosen step).action = step.action := by
  unfold loosen
  split
  next insertion _ => exact insertion.symm
  next => rfl

theorem matches_withOptions (e : Encoding) (options options' : Options) (traceId : Nat)
    (same : s.fact = s'.fact) :
    Task.Matches ((e.withOptions options).task traceId) ((e.withOptions options').task traceId)
      s s' :=
  ⟨fun type => (members_withOptions e options type).trans
    (members_withOptions e options' type).symm, same⟩

/-- The task whose insertions name a transition out of the current state of the trace. -/
def guardedTask (e : Encoding) (cost : GotoGoalCost) (reuse : Bool) (traceId : Nat) : Task :=
  (e.withOptions ⟨.traceGuarded, cost, reuse⟩).task traceId

/-- The task whose insertions name an activity. -/
def looseTask (e : Encoding) (cost : GotoGoalCost) (reuse : Bool) (traceId : Nat) : Task :=
  (e.withOptions ⟨.unconstrained, cost, reuse⟩).task traceId

variable {cost : GotoGoalCost} {reuse reuse' : Bool} {plan : List Step}

theorem action?_add (e : Encoding) (policy : AddPolicy) :
    ((e.withOptions ⟨policy, cost, reuse⟩).task traceId).domain.action? "add" =
      some (e.vocabulary.add policy) := by
  cases e with
  | mk strategy => cases strategy <;> rfl

/-- The constraints do not move differently if the step names states of the trace as well. -/
theorem changes_along_add (e : Encoding) (x symbol y : String) :
    (e.guardedTask cost reuse traceId).changes s (e.vocabulary.add .traceGuarded).effect
        (Vocabulary.along x symbol y) =
      (e.looseTask cost reuse' traceId).changes s (e.vocabulary.add .unconstrained).effect
        (Assignment.bind id "?e" symbol) := by
  have same := matches_withOptions e ⟨.traceGuarded, cost, reuse⟩
    ⟨.unconstrained, cost, reuse'⟩ traceId (rfl : s.fact = s.fact)
  have agree : (Vocabulary.along x symbol y).AgreeOn (fun name => name != "?t1" && name != "?t2")
      (Assignment.bind id "?e" symbol) := by
    intro name known
    simp only [Bool.and_eq_true, bne_iff_ne] at known
    simp [Vocabulary.along, Assignment.bind, known]
  refine Task.changes_congr same (e.vocabulary.add .traceGuarded).effect _ _ agree ?_
  cases e with
  | mk strategy => cases strategy <;> rfl

theorem next?_of_ne_add (e : Encoding) (s : State) {step : Step} (other : step.action ≠ "add") :
    (e.guardedTask cost reuse traceId).next? s step =
      (e.looseTask cost reuse' traceId).next? s step := by
  have same := matches_withOptions e ⟨.traceGuarded, cost, reuse⟩
    ⟨.unconstrained, cost, reuse'⟩ traceId (rfl : s.fact = s.fact)
  have changes := Task.changes?_congr same
    (action?_addPolicy e.strategy .traceGuarded .unconstrained cost reuse reuse' other)
    (readsFacts_of_mem e.strategy ⟨.traceGuarded, cost, reuse⟩)
  rw [Task.next?_eq_map, Task.next?_eq_map, guardedTask, changes, looseTask]

/-- What is left of an insertion without the guard can be taken wherever the insertion can. -/
theorem next?_loosen {step : Step}
    (taken : (e.guardedTask cost reuse traceId).next? s step = some s') :
    (e.looseTask cost reuse' traceId).next? s (loosen step) = some s' := by
  by_cases insertion : step.action = "add"
  · obtain ⟨name, arguments⟩ := step
    cases insertion
    obtain ⟨x, symbol, y, rfl, _, listed, _, _, _, rfl⟩ :=
      (Vocabulary.next?_along (action?_add e .traceGuarded) rfl rfl).mp taken
    rw [loosen_add]
    refine (Vocabulary.next?_add (action?_add e .unconstrained)).mpr ⟨symbol, ?_, rfl, ?_⟩
    · rw [guardedTask, members_withOptions] at listed
      rwa [members_withOptions]
    · exact congrArg s.apply (changes_along_add e x symbol y)
  · rw [loosen_of_ne insertion, ← next?_of_ne_add e s insertion]
    exact taken

theorem run?_loosen (ran : (e.guardedTask cost reuse traceId).run? s plan = some s') :
    (e.looseTask cost reuse' traceId).run? s (plan.map loosen) = some s' := by
  induction plan generalizing s with
  | nil =>
    cases ran
    rfl
  | cons step plan ih =>
    rw [Task.run?_cons, Option.bind_eq_some_iff] at ran
    obtain ⟨between, taken, ran⟩ := ran
    rw [List.map_cons, Task.run?_cons, next?_loosen taken]
    exact ih ran

/-- Every insertion of a plan names the activity of a transition out of the current state of the
trace. -/
def InsertsAlong (e : Encoding) (t : Task) (plan : List Step) : Prop :=
  ∀ before symbol after, plan = before ++ ⟨"add", [symbol]⟩ :: after →
    ∃ s, t.run? t.init before = some s ∧ ∃ transition ∈ e.trace.transitions,
      transition.symbol = symbol ∧ e.traceFact transition.source ∈ s

theorem InsertsAlong.left {t : Task} {more : List Step} (along : e.InsertsAlong t (plan ++ more)) :
    e.InsertsAlong t plan :=
  fun before symbol after same => along before symbol (after ++ more) (by simp [same])

section

variable {strategy : Strategy} {options : Options} {trace : Automaton}
  {constraints : List Constraint}

theorem made_withOptions (made : Encoding.of strategy options trace constraints = .ok e)
    (options' : Options) :
    Encoding.of strategy options' trace constraints = .ok (e.withOptions options') := by
  rw [of_options options', made]
  rfl

variable (made : Encoding.of strategy options trace constraints = .ok e)

include made

/-- A guarded insertion is made next to a transition out of the current state of the trace. -/
theorem transition_of_next?_loosen {m : Standing} {step : Step} {symbol : String}
    (shown : (e.withOptions ⟨.traceGuarded, cost, reuse⟩).Shows traceId m s)
    (taken : (e.guardedTask cost reuse traceId).next? s step = some s')
    (insertion : loosen step = ⟨"add", [symbol]⟩) :
    ∃ t ∈ e.trace.transitions, t.symbol = symbol ∧ e.traceFact t.source ∈ s := by
  have f : (e.withOptions ⟨.traceGuarded, cost, reuse⟩).Faithful traceId :=
    faithful_of_ok (made_withOptions made _)
  obtain ⟨name, arguments⟩ := step
  have named := action_loosen ⟨name, arguments⟩
  rw [insertion] at named
  subst named
  obtain ⟨t, member, here, rfl, _⟩ := (f.next?_along shown f.add rfl rfl).mp taken
  have symbols : [t.symbol] = [symbol] := congrArg Step.arguments insertion
  exact ⟨t, member, (List.cons.inj symbols).1, (shown.traceFact_mem f.toNamed f.valid).mpr here⟩

/-- An insertion that could name a transition may as well do so. -/
theorem next?_guarded {m : Standing} {t : Transition}
    (shown : (e.withOptions ⟨.traceGuarded, cost, reuse⟩).Shows traceId m s)
    (member : t ∈ e.trace.transitions) (current : e.traceFact t.source ∈ s)
    (taken : (e.looseTask cost reuse' traceId).next? s ⟨"add", [t.symbol]⟩ = some s') :
    (e.guardedTask cost reuse traceId).next? s ⟨"add", e.trace.transitionObjects t⟩ = some s' := by
  have f : (e.withOptions ⟨.traceGuarded, cost, reuse⟩).Faithful traceId :=
    faithful_of_ok (made_withOptions made _)
  have here : t.source = m.trace := (shown.traceFact_mem f.toNamed f.valid).mp current
  obtain ⟨next, guarded⟩ : ∃ next, (e.guardedTask cost reuse traceId).next? s
      ⟨"add", e.trace.transitionObjects t⟩ = some next :=
    ⟨_, (f.next?_along shown f.add rfl rfl).mpr ⟨t, member, here, rfl, rfl⟩⟩
  have loose : (e.looseTask cost reuse' traceId).next? s ⟨"add", [t.symbol]⟩ = some next :=
    next?_loosen guarded
  rw [guarded, ← taken, loose]

theorem insertsAlong_of_guarded {guarded : List Step}
    (ran : (e.guardedTask cost reuse traceId).run? (e.guardedTask cost reuse traceId).init
      guarded = some s) :
    e.InsertsAlong (e.looseTask cost reuse' traceId) (guarded.map loosen) := by
  have f : (e.withOptions ⟨.traceGuarded, cost, reuse⟩).Faithful traceId :=
    faithful_of_ok (made_withOptions made _)
  intro before symbol after same
  obtain ⟨front, rest, rfl, rfl, back⟩ := List.map_eq_append_iff.mp same
  obtain ⟨step, later, rfl, insertion, rfl⟩ := List.map_eq_cons_iff.mp back
  rw [Task.run?_append, Option.bind_eq_some_iff] at ran
  obtain ⟨between, reached, ran⟩ := ran
  rw [Task.run?_cons, Option.bind_eq_some_iff] at ran
  obtain ⟨next, taken, _⟩ := ran
  obtain ⟨moves, _, _, shown⟩ := f.legal_of_run? reached
  exact ⟨between, run?_loosen reached, transition_of_next?_loosen made shown taken insertion⟩

theorem exists_guarded_of_insertsAlong
    (ran : (e.looseTask cost reuse' traceId).run? (e.looseTask cost reuse' traceId).init plan =
      some s)
    (along : e.InsertsAlong (e.looseTask cost reuse' traceId) plan) :
    ∃ guarded, guarded.map loosen = plan ∧
      (e.guardedTask cost reuse traceId).run? (e.guardedTask cost reuse traceId).init guarded =
        some s := by
  have f : (e.withOptions ⟨.traceGuarded, cost, reuse⟩).Faithful traceId :=
    faithful_of_ok (made_withOptions made _)
  induction plan using List.reverseRecOn generalizing s with
  | nil =>
    cases ran
    exact ⟨[], rfl, rfl⟩
  | append_singleton plan step ih =>
    rw [Task.run?_append, Option.bind_eq_some_iff] at ran
    obtain ⟨between, ran, taken⟩ := ran
    have taken : (e.looseTask cost reuse' traceId).next? between step = some s := by
      simpa [Task.run?] using taken
    obtain ⟨guarded, same, reached⟩ := ih ran along.left
    obtain ⟨step', rfl, taken'⟩ : ∃ step', loosen step' = step ∧
        (e.guardedTask cost reuse traceId).next? between step' = some s := by
      by_cases insertion : step.action = "add"
      · obtain ⟨name, arguments⟩ := step
        cases insertion
        obtain ⟨symbol, _, rfl, _⟩ :=
          (Vocabulary.next?_add (action?_add e .unconstrained)).mp taken
        obtain ⟨here, again, t, member, rfl, current⟩ := along plan symbol [] rfl
        cases ran.symm.trans again
        obtain ⟨moves, _, _, shown⟩ := f.legal_of_run? reached
        exact ⟨_, loosen_add _ _ _, next?_guarded made shown member current taken⟩
      · exact ⟨step, loosen_of_ne insertion, by rw [next?_of_ne_add e between insertion, taken]⟩
    refine ⟨guarded ++ [step'], by simp [same], ?_⟩
    rw [Task.run?_append, reached]
    simpa [Task.run?] using taken'

end

/-- States with the same facts, the second at a cost that is higher by an amount. -/
structure Dearer (amount : Nat) (s s' : State) : Prop where
  fact : s.fact = s'.fact
  cost : s'.value totalCost = s.value totalCost + amount

theorem Dearer.apply {amount : Nat} (dearer : Dearer amount s s') (changes : List Change) :
    Dearer amount (s.apply changes) (s'.apply changes) where
  fact := by simp only [State.apply, dearer.fact]
  cost := by simp only [State.apply, dearer.cost, Nat.add_right_comm]

theorem Dearer.charge {amount : Nat} (dearer : Dearer amount s s') (changes : List Change) :
    Dearer (amount + 1) (s.apply changes) (s'.apply (.raise totalCost 1 :: changes)) where
  fact := by simp [State.apply, dearer.fact]
  cost := by
    simp only [State.apply, dearer.cost, List.map_cons, List.sum_cons, Change.amount, if_true]
    omega

theorem changes_gotoGoal_unit (t : Task) (s : State) (σ : Assignment) :
    t.changes s (Replicated.gotoGoal .unit).effect σ =
      .raise totalCost 1 :: t.changes s (Replicated.gotoGoal .free).effect σ := by
  simp [Replicated.gotoGoal, GotoGoalCost.amount, charge, Task.changes, Task.allChanges]

/-- The priced step into the joint states makes the same changes and is charged for. -/
theorem changes?_gotoGoal {t t' : Task} (same : Task.Matches t t' s s')
    (free : t.domain.action? "goto-goal" = some (Replicated.gotoGoal .free))
    (priced : t'.domain.action? "goto-goal" = some (Replicated.gotoGoal .unit))
    (arguments : List String) : t'.changes? s' ⟨"goto-goal", arguments⟩ =
      (t.changes? s ⟨"goto-goal", arguments⟩).map (Change.raise totalCost 1 :: ·) := by
  have parameters : (Replicated.gotoGoal .unit).parameters =
    (Replicated.gotoGoal .free).parameters := rfl
  have precondition : (Replicated.gotoGoal .unit).precondition =
    (Replicated.gotoGoal .free).precondition := rfl
  simp only [Task.changes?, free, priced, Option.bind_some, parameters, precondition,
    Task.assign?_congr same.members, Option.map_bind]
  refine Option.bind_congr fun σ _ => ?_
  have agree : σ.AgreeOn (fun _ => true) σ := fun _ _ => rfl
  rw [Function.comp_apply, changes_gotoGoal_unit,
    Task.holds_congr same (Replicated.gotoGoal .free).precondition σ σ agree rfl,
    Task.changes_congr same (Replicated.gotoGoal .free).effect σ σ agree rfl]
  split <;> rfl

theorem next?_dearer (replicated : e.strategy = .replicated) (policy : AddPolicy)
    (reuse reuse' : Bool) (traceId : Nat) {amount : Nat} (dearer : Dearer amount s s')
    (step : Step) :
    Option.Rel (Dearer (amount + if step.action = "goto-goal" then 1 else 0))
      (((e.withOptions ⟨policy, .free, reuse⟩).task traceId).next? s step)
      (((e.withOptions ⟨policy, .unit, reuse'⟩).task traceId).next? s' step) := by
  have matched := matches_withOptions e ⟨policy, .free, reuse⟩ ⟨policy, .unit, reuse'⟩ traceId
    dearer.fact
  rw [Task.next?_eq_map, Task.next?_eq_map]
  by_cases join : step.action = "goto-goal"
  · obtain ⟨name, arguments⟩ := step
    cases join
    have known (cost : GotoGoalCost) (reuse : Bool) :
        ((e.withOptions ⟨policy, cost, reuse⟩).task traceId).domain.action? "goto-goal" =
          some (Replicated.gotoGoal cost) := by
      rw [domain_withOptions, replicated]
      rfl
    rw [changes?_gotoGoal matched (known _ _) (known _ _), if_pos rfl]
    cases ((e.withOptions ⟨policy, .free, reuse⟩).task traceId).changes? s
      ⟨"goto-goal", arguments⟩ with
    | none => exact .none
    | some changes => exact .some (dearer.charge changes)
  · have changes := Task.changes?_congr matched
      (action?_gotoGoalCost e.strategy policy .free .unit reuse reuse' join)
      (readsFacts_of_mem e.strategy ⟨policy, .free, reuse⟩)
    rw [← changes, if_neg join, Nat.add_zero]
    cases ((e.withOptions ⟨policy, .free, reuse⟩).task traceId).changes? s step with
    | none => exact .none
    | some changes => exact .some (dearer.apply changes)

theorem run?_dearer (replicated : e.strategy = .replicated) (policy : AddPolicy)
    (reuse reuse' : Bool) (traceId : Nat) {amount : Nat} (dearer : Dearer amount s s')
    (plan : List Step) :
    Option.Rel (Dearer (amount + plan.countP fun step => step.action = "goto-goal"))
      (((e.withOptions ⟨policy, .free, reuse⟩).task traceId).run? s plan)
      (((e.withOptions ⟨policy, .unit, reuse'⟩).task traceId).run? s' plan) := by
  induction plan generalizing s s' amount with
  | nil => exact .some dearer
  | cons step plan ih =>
    rw [Task.run?_cons, Task.run?_cons, List.countP_cons]
    have next := next?_dearer replicated policy reuse reuse' traceId dearer step
    generalize ((e.withOptions ⟨policy, .free, reuse⟩).task traceId).next? s step = free at next ⊢
    generalize ((e.withOptions ⟨policy, .unit, reuse'⟩).task traceId).next? s' step = priced
      at next ⊢
    cases next with
    | none => exact .none
    | some dearer =>
      have rest := ih dearer
      simpa [Nat.add_assoc, Nat.add_comm] using rest

theorem atGoal_withOptions (e : Encoding) (options options' : Options) (s : State) :
    ((e.withOptions options).task traceId).atGoal s =
      ((e.withOptions options').task traceId).atGoal s := by
  have reads : Formula.allReadOnly (fun _ => true) e.goal = true := by
    rw [Formula.allReadOnly_eq_all, goal]
    cases e.strategy with
    | replicated => simp [Replicated.goal, Formula.readsOnly]
    | shared => simp [Shared.goal, Formula.readsOnly]
  exact Task.allHold_congr (matches_withOptions e options options' traceId rfl) e.goal id id
    (fun _ _ => rfl) reads

/-- What the guard of insertions does to a task: it takes plans away, and the others pass through
the same states without it. -/
structure Loosens (e : Encoding) (guarded loose : Task) : Prop where
  states : ∀ plan s, guarded.run? guarded.init plan = some s → ∀ before, before <+: plan →
    loose.run? loose.init (before.map loosen) = guarded.run? guarded.init before
  solves : ∀ plan k, guarded.Solves plan k → loose.Solves (plan.map loosen) k
  optimum : ∀ k, IsLeast {k | ∃ plan, guarded.Solves plan k} k →
    ∃ k' ≤ k, IsLeast {k | ∃ plan, loose.Solves plan k} k'
  lifts : ∀ plan s, loose.run? loose.init plan = some s →
    ((∃ lifted, lifted.map loosen = plan ∧ (guarded.run? guarded.init lifted).isSome = true) ↔
      e.InsertsAlong loose plan)

/-- Every set of costs that is not empty has a least one. -/
theorem exists_isLeast {costs : Set Nat} {k : Nat} (member : k ∈ costs) :
    ∃ k' ≤ k, IsLeast costs k' := by
  classical
  have some : ∃ k, k ∈ costs := ⟨k, member⟩
  exact ⟨Nat.find some, Nat.find_min' some member, Nat.find_spec some,
    fun other listed => Nat.find_min' some listed⟩

theorem loosens {strategy : Strategy} {options : Options} {trace : Automaton}
    {constraints : List Constraint} (made : Encoding.of strategy options trace constraints = .ok e)
    (cost : GotoGoalCost) (reuse reuse' : Bool) (traceId : Nat) :
    e.Loosens (e.guardedTask cost reuse traceId) (e.looseTask cost reuse' traceId) := by
  have solves (plan : List Step) (k : Nat)
      (solved : (e.guardedTask cost reuse traceId).Solves plan k) :
      (e.looseTask cost reuse' traceId).Solves (plan.map loosen) k := by
    obtain ⟨s, ran, reached, paid⟩ := solved
    exact ⟨s, run?_loosen ran, atGoal_withOptions e _ _ s ▸ reached, paid⟩
  refine ⟨?_, solves, ?_, ?_⟩
  · rintro _ s ran before ⟨after, rfl⟩
    rw [Task.run?_append, Option.bind_eq_some_iff] at ran
    obtain ⟨between, reached, _⟩ := ran
    rw [reached]
    exact run?_loosen reached
  · rintro k ⟨⟨plan, solved⟩, _⟩
    exact exists_isLeast ⟨_, solves plan k solved⟩
  · intro plan s ran
    constructor
    · rintro ⟨lifted, rfl, applicable⟩
      obtain ⟨s', ran'⟩ := Option.isSome_iff_exists.mp applicable
      exact insertsAlong_of_guarded made ran'
    · intro along
      obtain ⟨lifted, same, ran'⟩ := exists_guarded_of_insertsAlong made ran along
      exact ⟨lifted, same, Option.isSome_iff_exists.mpr ⟨s, ran'⟩⟩

/-- What the options of an encoding change, and nothing else. -/
theorem option_effects {strategy : Strategy} {options : Options} {trace : Automaton}
    {constraints : List Constraint}
    (made : Encoding.of strategy options trace constraints = .ok e) :
    (∀ options', Encoding.of strategy options' trace constraints = .ok (e.withOptions options') ∧
      ∀ traceId, (e.withOptions options').problem traceId = e.problem traceId) ∧
    (∀ cost reuse reuse' traceId,
      e.Loosens (e.guardedTask cost reuse traceId) (e.looseTask cost reuse' traceId)) ∧
    (strategy = .replicated → ∀ policy reuse reuse' traceId plan,
      Option.Rel (Dearer (plan.countP fun step => step.action = "goto-goal"))
        (((e.withOptions ⟨policy, .free, reuse⟩).task traceId).run?
          ((e.withOptions ⟨policy, .free, reuse⟩).task traceId).init plan)
        (((e.withOptions ⟨policy, .unit, reuse'⟩).task traceId).run?
          ((e.withOptions ⟨policy, .unit, reuse'⟩).task traceId).init plan)) := by
  refine ⟨fun options' => ⟨made_withOptions made options', fun _ => problem_withOptions e options'⟩,
    loosens made, ?_⟩
  rintro rfl policy reuse reuse' traceId plan
  have start : Dearer 0 (e.task traceId).init (e.task traceId).init := ⟨rfl, rfl⟩
  have run := run?_dearer (inputs_of_ok made).1 policy reuse reuse' traceId start plan
  rw [Nat.zero_add] at run
  exact run

def sampleEncoding : Encoding :=
  Sample.encoding .replicated ⟨.traceGuarded, .free, false⟩ [Sample.absence]

def sampleInsertion : List Step := [⟨"add", ["t0", "b", "t1"]⟩, ⟨"sync", ["t0", "b", "t1"]⟩]

def sampleJoin : List Step := [⟨"sync", ["t0", "b", "t1"]⟩, ⟨"goto-goal", ["t1", "dummy"]⟩]

/-- The task with a price on joins, after a step along the trace and a join. -/
def joinedAt? (cost : GotoGoalCost) : Option State :=
  let task := (sampleEncoding.withOptions ⟨.traceGuarded, cost, false⟩).task 0
  task.run? task.init sampleJoin

/-- A plan with an insertion, with the guard and without it, and a plan with a join that is free
and one that is not. -/
theorem option_effects_sample :
    Encoding.of .replicated ⟨.traceGuarded, .free, false⟩ Sample.trace [Sample.absence] =
      .ok sampleEncoding ∧
    (∃ s, (sampleEncoding.guardedTask .free false 0).run?
        (sampleEncoding.guardedTask .free false 0).init sampleInsertion = some s ∧
      (sampleEncoding.looseTask .free false 0).run? (sampleEncoding.looseTask .free false 0).init
        [⟨"add", ["b"]⟩, ⟨"sync", ["t0", "b", "t1"]⟩] = some s) ∧
    ∃ free priced, joinedAt? .free = some free ∧ joinedAt? .unit = some priced ∧
      Dearer 1 free priced := by
  have made : Encoding.of .replicated ⟨.traceGuarded, .free, false⟩ Sample.trace
    [Sample.absence] = .ok sampleEncoding := Sample.made _ _
  obtain ⟨_, loosened, priced⟩ := option_effects made
  refine ⟨made, ?_, ?_⟩
  · have applicable : ((sampleEncoding.guardedTask .free false 0).run?
        (sampleEncoding.guardedTask .free false 0).init sampleInsertion).isSome = true := by
      decide +kernel
    obtain ⟨s, ran⟩ := Option.isSome_iff_exists.mp applicable
    have same := (loosened .free false false 0).states _ s ran sampleInsertion (List.prefix_refl _)
    exact ⟨s, ran, same.trans ran⟩
  · have applicable : (joinedAt? .free).isSome = true := by decide +kernel
    have related : Option.Rel (Dearer 1) (joinedAt? .free) (joinedAt? .unit) :=
      priced rfl .traceGuarded false false 0 sampleJoin
    generalize joinedAt? .free = ended at *
    generalize joinedAt? .unit = ended' at *
    cases related with
    | none => cases applicable
    | some dearer => exact ⟨_, _, rfl, rfl, dearer⟩

end AlignPlan.Encoding
