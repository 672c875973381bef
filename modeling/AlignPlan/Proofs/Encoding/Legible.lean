import AlignPlan.Proofs.Encoding.Closed

/-! All labels of the tasks that encodings produce are words, so what is written can be read back
as the task it denotes. -/
namespace AlignPlan

open Planning

theorem Name.isWord_of_isPlanningName {text : String} (named : isPlanningName text = true) :
    isWord text = true := by
  simp only [isPlanningName, Bool.and_eq_true] at named
  apply isWord_of_isNameChar _ named.2
  intro empty
  simp [empty] at named

namespace Encoding

variable {e : Encoding} {traceId : Nat}

/-! ### Domains -/

theorem forall_domain_labels {d : Domain} {P : String → Prop} : (∀ label ∈ d.labels, P label) ↔
    (∀ label ∈ ({ d with actions := [] } : Domain).labels, P label) ∧
      ∀ a ∈ d.actions, ∀ label ∈ a.labels, P label := by
  simp only [Domain.labels, List.flatMap_nil, List.append_nil, List.forall_mem_append,
    List.forall_mem_flatMap]

theorem Replicated.isWord_of_mem_labels (options : Options) :
    ∀ label ∈ (domain options).labels, isWord label = true := by
  have declarations : ∀ label ∈ ({ domain ⟨.unconstrained, .free, false⟩ with
      actions := [] } : Domain).labels, isWord label = true := by decide +kernel
  refine forall_domain_labels.mpr ⟨declarations, ?_⟩
  simp only [domain, List.forall_mem_cons]
  refine ⟨by decide +kernel, ?_, by decide +kernel, ?_, by simp⟩
  · cases options.addPolicy <;> decide +kernel
  · cases options.gotoGoalCost <;> decide +kernel

theorem Shared.isWord_of_mem_labels (options : Options) :
    ∀ label ∈ (domain options).labels, isWord label = true := by
  have declarations : ∀ label ∈ ({ domain ⟨.unconstrained, .free, false⟩ with
      actions := [] } : Domain).labels, isWord label = true := by decide +kernel
  refine forall_domain_labels.mpr ⟨declarations, ?_⟩
  simp only [domain, List.forall_mem_cons]
  refine ⟨by decide +kernel, ?_, by decide +kernel, by simp⟩
  cases options.addPolicy <;> decide +kernel

theorem isWord_of_mem_domain_labels : ∀ label ∈ e.domain.labels, isWord label = true := by
  unfold Encoding.domain Strategy.domain
  cases e.strategy
  · exact Replicated.isWord_of_mem_labels e.options
  · exact Shared.isWord_of_mem_labels e.options

/-! ### Problems -/

/-- Formulas that say what holds and what a fluent is worth. -/
def isFact : Formula → Bool
  | .atom _ _ | .value _ _ => true
  | _ => false

@[simp] theorem isFact_atom (predicate : String) (arguments : List String) :
    isFact (.atom predicate arguments) = true := rfl

@[simp] theorem isFact_value (fluent : String) (amount : Nat) :
    isFact (.value fluent amount) = true := rfl

theorem Replicated.isFact_of_mem_init {trace : Automaton} {constraints : List Constraint} :
    ∀ f ∈ init trace constraints, isFact f = true := by
  have joins (c : Constraint) : ∀ f ∈ jointFacts c, isFact f = true := by
    unfold jointFacts
    split <;> simp
  simp only [init, traceFacts, constraintFacts, List.forall_mem_append, List.forall_mem_cons,
    List.forall_mem_flatMap, List.forall_mem_map]
  simpa using fun c _ => joins c

theorem Shared.isFact_of_mem_init {trace : Automaton} {constraints : List Constraint} :
    ∀ f ∈ init trace constraints, isFact f = true := by
  simp only [init, traceFacts, constraintFacts, List.forall_mem_append, List.forall_mem_cons,
    List.forall_mem_flatMap, List.forall_mem_map]
  simp

theorem isFact_of_mem_init : ∀ f ∈ e.init, isFact f = true := by
  unfold Encoding.init
  cases e.strategy
  · exact Replicated.isFact_of_mem_init
  · exact Shared.isFact_of_mem_init

theorem Replicated.isFact_of_mem_goal {trace : Automaton} {constraints : List Constraint} :
    ∀ f ∈ goal trace constraints, isFact f = true := by
  simp only [goal, List.forall_mem_append, List.forall_mem_cons, List.forall_mem_map]
  simp

/-- Only the goal of the shared encoding says more than facts. -/
theorem isFact_of_mem_goal : ∀ f ∈ e.goal, isFact f = true ∨
    f = .forall Shared.automatonInState
      (.imply (.atom "cur_state" ["?a", "?s"]) (.atom "final_state" ["?a", "?s"])) := by
  unfold Encoding.goal
  cases e.strategy
  · exact fun f member => .inl (Replicated.isFact_of_mem_goal f member)
  · simp [Shared.goal]

section

variable (valid : e.Accepted)

include valid

theorem isWord_of_mem_objects : ∀ o ∈ (e.problem traceId).objects, ∀ label ∈ o.labels,
    isWord label = true := by
  intro o member
  change o ∈ e.table.objects at member
  rw [valid.objects] at member
  obtain ⟨r, registered, rfl⟩ := List.mem_map.mp member
  have named := ObjectName.isPlanningName_render (valid.checked registered)
  have types : ∀ type ∈ [traceStateType, automatonStateType, Replicated.actType,
      Replicated.dummyActType, Shared.activityType, Shared.automatonType], isWord type = true := by
    decide +kernel
  have typed : isWord r.type = true := by
    apply types
    cases strategy : e.strategy with
    | replicated =>
      rw [strategy, Strategy.registrations, Replicated.mem_registrations] at registered
      rcases registered with
        ⟨_, _, rfl⟩ | ⟨_, _, _, _, rfl⟩ | ⟨_, _, _, rfl⟩ | ⟨_, _, rfl⟩ | rfl <;> simp
    | shared =>
      rw [strategy, Strategy.registrations, Shared.mem_registrations] at registered
      rcases registered with ⟨_, _, rfl⟩ | ⟨_, _, rfl⟩ | ⟨_, _, rfl⟩ | ⟨_, _, rfl⟩ <;>
        simp
  simp [Object.labels, Name.isWord_of_isPlanningName named, typed]

theorem isWord_of_fact {f : Formula} (fact : isFact f = true)
    (typed : (e.task traceId).wellTyped [] f = true) : ∀ label ∈ f.labels, isWord label = true := by
  have declared {label : String} (member : label ∈ (e.task traceId).domain.labels) :
      isWord label = true := isWord_of_mem_domain_labels label member
  cases f with
  | atom name arguments =>
    obtain ⟨⟨p, member, rfl⟩, listed⟩ := Task.of_wellTyped_atom typed
    have own : p.name ∈ (e.task traceId).domain.predicates.flatMap Predicate.labels :=
      List.mem_flatMap_of_mem member List.mem_cons_self
    refine List.forall_mem_cons.mpr ⟨declared (by simp [Domain.labels, own]), ?_⟩
    intro argument among
    obtain ⟨o, known, rfl⟩ := listed argument among
    exact isWord_of_mem_objects valid o known _ List.mem_cons_self
  | value fluent amount =>
    rw [Task.wellTyped, List.contains_iff_mem] at typed
    exact List.forall_mem_singleton.mpr (declared (by simp [Domain.labels, typed]))
  | _ => simp [isFact] at fact

theorem isWord_of_mem_problem_labels : ∀ label ∈ (e.problem traceId).labels,
    isWord label = true := by
  have name : isWord (problemName traceId) = true :=
    Name.isWord_of_isPlanningName
      (Name.isPlanningName_append (by decide) (Name.all_isNameChar_decimal traceId))
  have domain : isWord domainName = true := by decide +kernel
  have metric : isWord totalCost = true := by decide +kernel
  simp only [Problem.labels, List.cons_append, List.forall_mem_cons, List.forall_mem_append,
    List.forall_mem_flatMap]
  have typed : ∀ f ∈ (e.problem traceId).init ++ (e.problem traceId).goal,
      (e.task traceId).wellTyped [] f = true := valid.wellTyped
  obtain ⟨initial, final⟩ := List.forall_mem_append.mp typed
  refine ⟨name, domain, metric, isWord_of_mem_objects valid, fun f member => ?_, fun f member => ?_⟩
  · exact isWord_of_fact valid (isFact_of_mem_init f member) (initial f member)
  · rcases isFact_of_mem_goal f member with fact | rfl
    · exact isWord_of_fact valid fact (final f member)
    · decide +kernel

end

/-- What is written says what it denotes and nothing else, wherever all labels are words. They are
in all that encodings write. -/
theorem written_form_exact :
    (∀ (f : Formula) (indent : Nat), (∀ label ∈ f.labels, isWord label = true) →
      IsText (f.render indent) f.expression) ∧
    (∀ a : Action, (∀ label ∈ a.labels, isWord label = true) → IsText a.render a.expression) ∧
    (∀ d : Domain, (∀ label ∈ d.labels, isWord label = true) → IsText d.render d.expression) ∧
    (∀ p : Problem, (∀ label ∈ p.labels, isWord label = true) → IsText p.render p.expression) ∧
    ∀ (strategy : Strategy) (options : Options) (trace : Automaton) (constraints : List Constraint)
      (e : Encoding) (traceId : Nat), Encoding.of strategy options trace constraints = .ok e →
      IsText e.domain.render e.domain.expression ∧
        IsText (e.problem traceId).render (e.problem traceId).expression := by
  have domains (d : Domain) (legible : ∀ label ∈ d.labels, isWord label = true) :
      IsText d.render d.expression := .of_tokens (Domain.reads_render legible).same
  have problems (p : Problem) (legible : ∀ label ∈ p.labels, isWord label = true) :
      IsText p.render p.expression := .of_tokens (Problem.reads_render legible).same
  refine ⟨fun f indent legible => .of_tokens (f.tokens_render indent legible),
    fun a legible => .of_tokens (Action.reads_render legible).same, domains, problems, ?_⟩
  intro _ _ _ _ e traceId made
  exact ⟨domains _ isWord_of_mem_domain_labels,
    problems _ (isWord_of_mem_problem_labels (accepted made))⟩

/-- A quantified effect in a column of its own, and a whole problem. -/
theorem written_form_sample :
    IsText (Formula.render 3 (.forall [.of ["?x", "?y"] "t", .untyped ["?z"]]
        (.when (.atom "p" ["?x", "?y"]) (.and [.not (.atom "p" ["?x"]), .increase "cost" 12]))))
      (.list [.word "forall",
        .list [.word "?x", .word "?y", .word "-", .word "t", .word "?z"],
        .list [.word "when", .list [.word "p", .word "?x", .word "?y"],
          .list [.word "and", .list [.word "not", .list [.word "p", .word "?x"]],
            .list [.word "increase", .list [.word "cost"], .word "12"]]]]) ∧
    isBalanced ((Sample.encoding .shared ⟨.traceGuarded, .unit, false⟩ [Sample.absence]).problem
      9).render = true := by
  obtain ⟨formulas, _, _, _, encodings⟩ := written_form_exact
  exact ⟨formulas _ 3 (by decide), (encodings _ _ _ _ _ 9 (Sample.made _ _)).2.balanced⟩

end Encoding

end AlignPlan
