import AlignPlan.Encoding.Steps
import AlignPlan.Proofs.Planning.Semantics

/-! The planning steps that all encodings share, in terms of facts: when they can be taken and
what they change, up to the move of the constraints. -/
namespace AlignPlan.Encoding

open Planning

section

variable {t : Task} {s s' : State} {σ : Assignment}

/-- A broadcast adds and deletes once for every binding under which its condition holds. -/
theorem changes_broadcast {quantified : List TypedList} {p q r : String}
    {xs ys zs : List String} {change : Change} :
    change ∈ t.changes s (broadcast quantified (.atom p xs) (.atom q ys) (.atom r zs)) σ ↔
      ∃ τ ∈ t.bindings (typedNames quantified) σ,
        ⟨p, xs.map τ⟩ ∈ s ∧ ⟨q, ys.map τ⟩ ∈ s ∧
        (change = .delete ⟨p, xs.map τ⟩ ∨ change = .add ⟨r, zs.map τ⟩) := by
  simp only [broadcast, Task.changes, Task.allChanges, Task.holds, Task.allHold, List.mem_flatMap,
    Bool.and_true, Bool.and_eq_true, ← State.mem_def]
  constructor
  · rintro ⟨τ, member, changed⟩
    split at changed
    next holds => exact ⟨τ, member, holds.1, holds.2, by simpa using changed⟩
    next => simp at changed
  · rintro ⟨τ, member, current, transition, changed⟩
    exact ⟨τ, member, by simpa [current, transition] using changed⟩

end

namespace Vocabulary

variable {v : Vocabulary} {t : Task} {s s' : State}

/-- The parameters of a step along a trace transition, bound to objects. -/
def along (source symbol target : String) : Assignment :=
  ((Assignment.bind id "?t2" target).bind "?e" symbol).bind "?t1" source

@[simp] theorem along_source (x e y : String) : along x e y "?t1" = x := rfl
@[simp] theorem along_symbol (x e y : String) : along x e y "?e" = e := rfl
@[simp] theorem along_target (x e y : String) : along x e y "?t2" = y := rfl

theorem assign?_traceStep {arguments : List String} {σ : Assignment} :
    t.assign? (typedNames v.traceStep) arguments = some σ ↔
      ∃ x e y, arguments = [x, e, y] ∧ x ∈ t.members (some traceStateType) ∧
        e ∈ t.members (some v.activityType) ∧ y ∈ t.members (some traceStateType) ∧
        σ = along x e y := by
  have names : typedNames v.traceStep =
    [("?t1", some traceStateType), ("?e", some v.activityType), ("?t2", some traceStateType)] := rfl
  rw [names]
  simp only [Task.assign?_cons, Task.assign?_nil]
  constructor
  · rintro ⟨x, _, _, rfl, source, ⟨e, _, _, rfl, symbol, ⟨y, _, _, rfl, target, ⟨rfl, rfl⟩, rfl⟩,
      rfl⟩, rfl⟩
    exact ⟨x, e, y, rfl, source, symbol, target, rfl⟩
  · rintro ⟨x, e, y, rfl, source, symbol, target, rfl⟩
    exact ⟨x, _, _, rfl, source, ⟨e, _, _, rfl, symbol, ⟨y, _, _, rfl, target, ⟨rfl, rfl⟩, rfl⟩,
      rfl⟩, rfl⟩

/-- A step along a transition of the trace, whatever its effect, needs the source to be current
and the transition to be there. -/
theorem next?_along {action : Action} {step : Step}
    (known : t.domain.action? step.action = some action)
    (parameters : action.parameters = v.traceStep)
    (precondition : action.precondition = v.onTraceStep) :
    t.next? s step = some s' ↔
      ∃ x e y, step.arguments = [x, e, y] ∧ x ∈ t.members (some traceStateType) ∧
        e ∈ t.members (some v.activityType) ∧ y ∈ t.members (some traceStateType) ∧
        ⟨v.traceCurrent, [x]⟩ ∈ s ∧ ⟨v.traceTransition, [x, e, y]⟩ ∈ s ∧
        s' = s.apply (t.changes s action.effect (along x e y)) := by
  have holds (x e y : String) : t.holds s v.onTraceStep (along x e y) = true ↔
      ⟨v.traceCurrent, [x]⟩ ∈ s ∧ ⟨v.traceTransition, [x, e, y]⟩ ∈ s := by
    simp [onTraceStep, Task.holds, Task.allHold, State.mem_def]
  rw [Task.next?_eq_some]
  constructor
  · rintro ⟨_, σ, found, assigned, true, rfl⟩
    obtain rfl := Option.some.inj (known.symm.trans found)
    rw [parameters, assign?_traceStep] at assigned
    obtain ⟨x, e, y, arguments, source, symbol, target, rfl⟩ := assigned
    rw [precondition, holds] at true
    exact ⟨x, e, y, arguments, source, symbol, target, true.1, true.2, rfl⟩
  · rintro ⟨x, e, y, arguments, source, symbol, target, current, transition, rfl⟩
    refine ⟨action, along x e y, known, ?_, ?_, rfl⟩
    · rw [parameters, assign?_traceStep]
      exact ⟨x, e, y, arguments, source, symbol, target, rfl⟩
    · rw [precondition, holds]
      exact ⟨current, transition⟩

/-- An insertion that names an activity alone can always be made. -/
theorem next?_add {arguments : List String}
    (known : t.domain.action? "add" = some (v.add .unconstrained)) :
    t.next? s ⟨"add", arguments⟩ = some s' ↔
      ∃ e ∈ t.members (some v.activityType), arguments = [e] ∧
        s' = s.apply (t.changes s (v.add .unconstrained).effect (Assignment.bind id "?e" e)) := by
  have names : typedNames (v.add .unconstrained).parameters = [("?e", some v.activityType)] := rfl
  rw [Task.next?_eq_some]
  constructor
  · rintro ⟨_, σ, found, assigned, _, rfl⟩
    obtain rfl := Option.some.inj (known.symm.trans found)
    rw [names, Task.assign?_cons] at assigned
    obtain ⟨e, _, _, same, symbol, rest, rfl⟩ := assigned
    obtain ⟨rfl, rfl⟩ := Task.assign?_nil.mp rest
    exact ⟨e, symbol, same, rfl⟩
  · rintro ⟨e, symbol, rfl, rfl⟩
    refine ⟨_, Assignment.bind id "?e" e, known, ?_, rfl, rfl⟩
    rw [names, Task.assign?_cons]
    exact ⟨e, [], id, rfl, symbol, Task.assign?_nil.mpr ⟨rfl, rfl⟩, rfl⟩

theorem changes_sync {x e y : String} : t.changes s v.sync.effect (along x e y) =
    [.delete ⟨v.traceCurrent, [x]⟩, .add ⟨v.traceCurrent, [y]⟩] ++
      t.changes s v.advanceConstraints (along x e y) := by
  simp [sync, advanceTrace, Task.changes, Task.allChanges]

theorem changes_add {policy : AddPolicy} {σ : Assignment} :
    t.changes s (v.add policy).effect σ =
      [.raise totalCost 1] ++ t.changes s v.advanceConstraints σ := by
  simp [add, charge, Task.changes, Task.allChanges]

theorem changes_del {x e y : String} : t.changes s v.del.effect (along x e y) =
    [.raise totalCost 1] ++
      [.delete ⟨v.traceCurrent, [x]⟩, .add ⟨v.traceCurrent, [y]⟩] := by
  simp [del, advanceTrace, charge, Task.changes, Task.allChanges]

end Vocabulary

end AlignPlan.Encoding
