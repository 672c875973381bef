import AlignPlan.Proofs.Lists
import AlignPlan.Proofs.Planning.Semantics

/-! What the meaning of a formula depends on: the objects of the types, the facts that hold and
what the names in it stand for. Tasks with the same objects therefore take an action alike. -/
namespace AlignPlan.Planning

namespace Formula

mutual

/-- A formula that compares no values and applies predicates only to names of which `known`
holds. -/
def readsOnly (known : String → Bool) : Formula → Bool
  | .atom _ arguments => arguments.all known
  | .not body | .forall _ body => readsOnly known body
  | .and conjuncts => allReadOnly known conjuncts
  | .imply left right | .when left right => readsOnly known left && readsOnly known right
  | .increase _ _ => true
  | .value _ _ => false

def allReadOnly (known : String → Bool) : List Formula → Bool
  | [] => true
  | f :: fs => readsOnly known f && allReadOnly known fs

end

theorem allReadOnly_eq_all (known : String → Bool) (fs : List Formula) :
    allReadOnly known fs = fs.all (readsOnly known) := by
  induction fs with
  | nil => rfl
  | cons f fs ih => rw [allReadOnly, List.all_cons, ih]

end Formula

/-- Whether an action depends on facts alone. -/
def Action.readsFacts (a : Action) : Bool :=
  a.precondition.readsOnly (fun _ => true) && a.effect.readsOnly fun _ => true

/-- Assignments that give some names the same meaning. -/
def Assignment.AgreeOn (known : String → Bool) (σ τ : Assignment) : Prop :=
  ∀ name, known name = true → σ name = τ name

variable {known : String → Bool} {σ τ : Assignment}

theorem Assignment.AgreeOn.bind (agree : σ.AgreeOn known τ) (name object : String) :
    (σ.bind name object).AgreeOn known (τ.bind name object) := by
  intro other knows
  simp only [Assignment.bind, agree other knows]

theorem Assignment.AgreeOn.map_eq (agree : σ.AgreeOn known τ) {names : List String}
    (knows : names.all known = true) : names.map σ = names.map τ :=
  List.map_congr_left fun name member => agree name (List.all_eq_true.mp knows name member)

namespace Task

/-- Tasks with the same objects of every type, in states with the same facts. -/
structure Matches (t t' : Task) (s s' : State) : Prop where
  members : ∀ type, t.members type = t'.members type
  fact : s.fact = s'.fact

variable {t t' : Task} {s s' : State}

theorem forall₂_bindings (members : ∀ type, t.members type = t'.members type)
    (agree : σ.AgreeOn known τ) (quantified : List (String × Option String)) :
    List.Forall₂ (Assignment.AgreeOn known) (t.bindings quantified σ)
      (t'.bindings quantified τ) := by
  induction quantified generalizing σ τ with
  | nil => exact .cons agree .nil
  | cons v vs ih =>
    unfold bindings
    rw [members]
    refine List.rel_flatMap (R := Eq) (List.forall₂_refl _) ?_
    rintro object _ rfl
    exact ih (agree.bind _ object)

theorem assign?_congr (members : ∀ type, t.members type = t'.members type)
    (parameters : List (String × Option String)) (objects : List String) :
    t.assign? parameters objects = t'.assign? parameters objects := by
  induction parameters generalizing objects with
  | nil => cases objects <;> rfl
  | cons v vs ih => cases objects <;> simp [assign?, members, ih]

mutual

theorem holds_congr (same : Matches t t' s s') : (f : Formula) → (σ τ : Assignment) →
    σ.AgreeOn known τ → f.readsOnly known = true → t.holds s f σ = t'.holds s' f τ
  | .atom predicate arguments, σ, τ, agree, reads => by
    rw [holds, holds, same.fact, agree.map_eq reads]
  | .not body, σ, τ, agree, reads => by
    rw [holds, holds, holds_congr same body σ τ agree reads]
  | .and conjuncts, σ, τ, agree, reads => by
    rw [holds, holds, allHold_congr same conjuncts σ τ agree reads]
  | .imply premise conclusion, σ, τ, agree, reads => by
    obtain ⟨left, right⟩ := Bool.and_eq_true_iff.mp reads
    rw [holds, holds, holds_congr same premise σ τ agree left,
      holds_congr same conclusion σ τ agree right]
  | .forall quantified body, σ, τ, agree, reads => by
    rw [holds, holds]
    exact all_eq_of_forall₂ (fun σ τ agree => holds_congr same body σ τ agree reads)
      (forall₂_bindings same.members agree _)
  | .when _ _, _, _, _, _ | .increase _ _, _, _, _, _ => by simp only [holds]
  | .value _ _, _, _, _, reads => by cases reads

theorem allHold_congr (same : Matches t t' s s') : (fs : List Formula) → (σ τ : Assignment) →
    σ.AgreeOn known τ → Formula.allReadOnly known fs = true →
    t.allHold s fs σ = t'.allHold s' fs τ
  | [], _, _, _, _ => rfl
  | f :: fs, σ, τ, agree, reads => by
    obtain ⟨first, others⟩ := Bool.and_eq_true_iff.mp reads
    rw [allHold, allHold, holds_congr same f σ τ agree first,
      allHold_congr same fs σ τ agree others]

end

mutual

theorem changes_congr (same : Matches t t' s s') : (f : Formula) → (σ τ : Assignment) →
    σ.AgreeOn known τ → f.readsOnly known = true → t.changes s f σ = t'.changes s' f τ
  | .atom predicate arguments, σ, τ, agree, reads => by
    rw [changes, changes, agree.map_eq reads]
  | .not (.atom predicate arguments), σ, τ, agree, reads => by
    rw [changes, changes, agree.map_eq reads]
  | .and conjuncts, σ, τ, agree, reads => by
    rw [changes, changes, allChanges_congr same conjuncts σ τ agree reads]
  | .forall quantified body, σ, τ, agree, reads => by
    rw [changes, changes]
    exact flatMap_eq_of_forall₂ (fun σ τ agree => changes_congr same body σ τ agree reads)
      (forall₂_bindings same.members agree _)
  | .when condition effect, σ, τ, agree, reads => by
    obtain ⟨left, right⟩ := Bool.and_eq_true_iff.mp reads
    rw [changes, changes, holds_congr same condition σ τ agree left,
      changes_congr same effect σ τ agree right]
  | .increase _ _, _, _, _, _ | .value _ _, _, _, _, _ | .imply _ _, _, _, _, _ => by
    simp only [changes]
  | .not (.not _), _, _, _, _ | .not (.and _), _, _, _, _ | .not (.imply _ _), _, _, _, _
  | .not (.forall _ _), _, _, _, _ | .not (.when _ _), _, _, _, _
  | .not (.increase _ _), _, _, _, _ | .not (.value _ _), _, _, _, _ => by simp only [changes]

theorem allChanges_congr (same : Matches t t' s s') : (fs : List Formula) →
    (σ τ : Assignment) → σ.AgreeOn known τ → Formula.allReadOnly known fs = true →
    t.allChanges s fs σ = t'.allChanges s' fs τ
  | [], _, _, _, _ => rfl
  | f :: fs, σ, τ, agree, reads => by
    obtain ⟨first, others⟩ := Bool.and_eq_true_iff.mp reads
    rw [allChanges, allChanges, changes_congr same f σ τ agree first,
      allChanges_congr same fs σ τ agree others]

end

/-- What a step changes, if it can be taken. -/
def changes? (t : Task) (s : State) (step : Step) : Option (List Change) :=
  (t.domain.action? step.action).bind fun action =>
    (t.assign? (typedNames action.parameters) step.arguments).bind fun σ =>
      if t.holds s action.precondition σ then some (t.changes s action.effect σ) else none

theorem next?_eq_map (t : Task) (s : State) (step : Step) :
    t.next? s step = (t.changes? s step).map s.apply := by
  unfold next? changes?
  cases t.domain.action? step.action with
  | none => rfl
  | some action =>
    dsimp only [Option.bind_some]
    cases t.assign? (typedNames action.parameters) step.arguments with
    | none => rfl
    | some σ =>
      dsimp only [Option.bind_some]
      split <;> rfl

/-- An action that both tasks have changes the same in both. -/
theorem changes?_congr (same : Matches t t' s s') {step : Step}
    (shared : t.domain.action? step.action = t'.domain.action? step.action)
    (reads : ∀ action ∈ t.domain.actions, action.readsFacts = true) :
    t.changes? s step = t'.changes? s' step := by
  rw [changes?, changes?, ← shared]
  refine Option.bind_congr fun action found => ?_
  obtain ⟨condition, effect⟩ :=
    Bool.and_eq_true_iff.mp (reads action (Domain.mem_of_action? found).1)
  rw [assign?_congr same.members]
  refine Option.bind_congr fun σ _ => ?_
  have agree : σ.AgreeOn (fun _ => true) σ := fun _ _ => rfl
  rw [holds_congr same action.precondition σ σ agree condition,
    changes_congr same action.effect σ σ agree effect]

end Task

end AlignPlan.Planning
