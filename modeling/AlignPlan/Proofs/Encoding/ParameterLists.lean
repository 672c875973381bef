import AlignPlan.Proofs.Encoding.Legible
import AlignPlan.Proofs.Planning.TypedLists

/-! The typed lists in the tasks that encodings produce. Their groups stay apart in the text, so the
types and parameters that are read are the declared ones. -/
namespace AlignPlan

namespace Planning

namespace Formula

mutual

/-- The variables that quantifiers bind, outer quantifiers first. -/
def typedLists : Formula → List (List TypedList)
  | .atom _ _ | .increase _ _ | .value _ _ => []
  | .not body => typedLists body
  | .and conjuncts => allTypedLists conjuncts
  | .imply left right | .when left right => typedLists left ++ typedLists right
  | .forall quantified body => quantified :: typedLists body

def allTypedLists : List Formula → List (List TypedList)
  | [] => []
  | f :: fs => typedLists f ++ allTypedLists fs

end

end Formula

def Action.typedLists (a : Action) : List (List TypedList) :=
  a.parameters :: a.precondition.typedLists ++ a.effect.typedLists

def Domain.typedLists (d : Domain) : List (List TypedList) :=
  d.types :: d.predicates.map Predicate.parameters ++ d.actions.flatMap Action.typedLists

def Problem.typedLists (p : Problem) : List (List TypedList) :=
  (p.init ++ p.goal).flatMap Formula.typedLists

end Planning

open Planning

namespace Encoding

variable {e : Encoding}

theorem Replicated.separable_typedLists (options : Options) :
    ∀ lists ∈ (domain options).typedLists, Separable lists := by
  have all : ∀ (policy : AddPolicy) (cost : GotoGoalCost),
      ∀ lists ∈ (domain ⟨policy, cost, false⟩).typedLists, Separable lists := by
    intro policy cost
    cases policy <;> cases cost <;> decide +kernel
  exact all options.addPolicy options.gotoGoalCost

theorem Shared.separable_typedLists (options : Options) :
    ∀ lists ∈ (domain options).typedLists, Separable lists := by
  have all : ∀ policy : AddPolicy,
      ∀ lists ∈ (domain ⟨policy, .free, false⟩).typedLists, Separable lists := by
    intro policy
    cases policy <;> decide +kernel
  exact all options.addPolicy

theorem separable_of_mem_domain : ∀ lists ∈ e.domain.typedLists, Separable lists := by
  unfold Encoding.domain Strategy.domain
  cases e.strategy
  · exact Replicated.separable_typedLists e.options
  · exact Shared.separable_typedLists e.options

theorem typedLists_of_isFact {f : Formula} (fact : isFact f = true) : f.typedLists = [] := by
  cases f with
  | atom _ _ => rw [Formula.typedLists]
  | value _ _ => rw [Formula.typedLists]
  | _ => simp [isFact] at fact

/-- Only the goal of the shared encoding quantifies. -/
theorem separable_of_mem_problem {traceId : Nat} :
    ∀ lists ∈ (e.problem traceId).typedLists, Separable lists := by
  intro lists member
  obtain ⟨f, stated, bound⟩ := List.mem_flatMap.mp member
  have known : isFact f = true ∨ f = .forall Shared.automatonInState
      (.imply (.atom "cur_state" ["?a", "?s"]) (.atom "final_state" ["?a", "?s"])) := by
    rcases List.mem_append.mp stated with initial | final
    · exact .inl (isFact_of_mem_init f initial)
    · exact isFact_of_mem_goal f final
  rcases known with fact | rfl
  · simp [typedLists_of_isFact fact] at bound
  · obtain rfl : lists = Shared.automatonInState := by simpa [Formula.typedLists] using bound
    decide +kernel

/-- Typed lists are read back from their text as they were written exactly if every group names
something, names and types are words other than the dash, and no group but the last is without a
type. All lists that encodings write are so: the types, the parameters of predicates and actions,
and what quantifiers bind. -/
theorem typed_lists_exact :
    (∀ lists : List TypedList,
      readTyped? (renderTyped lists) = some lists ↔ Separable lists) ∧
    ∀ e : Encoding, (∀ lists ∈ e.domain.typedLists, Separable lists) ∧
      ∀ traceId : Nat, ∀ lists ∈ (e.problem traceId).typedLists, Separable lists := by
  refine ⟨fun lists => readTyped?_renderTyped_iff, fun e => ⟨separable_of_mem_domain, ?_⟩⟩
  exact fun traceId => separable_of_mem_problem

/-- Names with brackets and dashes in them, the types of the shared encoding, where the last group
has no type, and what its goal quantifies over. -/
theorem typed_lists_exact_sample :
    let lists : List TypedList := [.of ["?s-1", "(s2)"] "state", .untyped ["--", "-a"]]
    let types : List TypedList :=
      [.of ["trace_state", "automaton_state"] "state", .untyped ["activity", "automaton"]]
    let e := Sample.encoding .shared ⟨.traceGuarded, .unit, false⟩ [Sample.absence]
    readTyped? (renderTyped lists) = some lists ∧
    renderTyped lists = "?s-1 (s2) - state -- -a" ∧
    types ∈ e.domain.typedLists ∧ readTyped? (renderTyped types) = some types ∧
    Shared.automatonInState ∈ (e.problem 4).typedLists ∧
    readTyped? (renderTyped Shared.automatonInState) = some Shared.automatonInState := by
  intro lists types e
  obtain ⟨exact_iff, written⟩ := typed_lists_exact
  obtain ⟨ofDomain, ofProblem⟩ := written e
  have declared : types ∈ e.domain.typedLists := by decide +kernel
  have quantified : Shared.automatonInState ∈ (e.problem 4).typedLists := by decide +kernel
  exact ⟨(exact_iff lists).mpr (by decide +kernel), by decide +kernel, declared,
    (exact_iff types).mpr (ofDomain types declared), quantified,
    (exact_iff _).mpr (ofProblem 4 _ quantified)⟩

end Encoding

end AlignPlan
