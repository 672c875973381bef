import AlignPlan.Planning.Task
import Mathlib.Algebra.Ring.Nat

/-! What a planning task means. An action is taken with objects of the types of its parameters;
its conditions are read in the state before, and what it deletes goes before what it adds.
Quantifiers range over the objects of a type, those of its subtypes included. -/
namespace AlignPlan.Planning

/-- A predicate applied to objects. -/
structure Atom where
  predicate : String
  arguments : List String
  deriving DecidableEq

/-- The facts that hold and the values of the numeric fluents. -/
@[ext]
structure State where
  fact : Atom → Bool
  value : String → Nat

instance : Membership Atom State := ⟨fun s a => s.fact a = true⟩

theorem State.mem_def (s : State) (a : Atom) : a ∈ s ↔ s.fact a = true := Iff.rfl

instance (a : Atom) (s : State) : Decidable (a ∈ s) := inferInstanceAs (Decidable (s.fact a = true))

inductive Change
  | add (a : Atom)
  | delete (a : Atom)
  | raise (fluent : String) (amount : Nat)
  deriving DecidableEq

/-- By how much a change raises a fluent. -/
def Change.amount (fluent : String) : Change → Nat
  | .raise f n => if f = fluent then n else 0
  | _ => 0

/-- A fact that is deleted and added at once holds afterwards. -/
def State.apply (s : State) (changes : List Change) : State where
  fact a := (s.fact a && !decide (.delete a ∈ changes)) || decide (.add a ∈ changes)
  value fluent := s.value fluent + (changes.map (Change.amount fluent)).sum

theorem State.mem_apply (s : State) (changes : List Change) (a : Atom) :
    a ∈ s.apply changes ↔ (a ∈ s ∧ .delete a ∉ changes) ∨ .add a ∈ changes := by
  simp [State.mem_def, State.apply]

/-- Changes that do not undo one another may be made one after the other. -/
theorem State.apply_append (s : State) (first second : List Change)
    (apart : ∀ a, Change.add a ∈ first → Change.delete a ∉ second) :
    s.apply (first ++ second) = (s.apply first).apply second := by
  ext x
  · have h := apart x
    simp only [State.apply, List.mem_append, Bool.decide_or]
    by_cases added : Change.add x ∈ first <;> by_cases deleted : Change.delete x ∈ second <;>
      simp_all
  · simp [State.apply, Nat.add_assoc]

/-- What names stand for. Names that are not bound stand for themselves. -/
abbrev Assignment := String → String

def Assignment.bind (σ : Assignment) (name object : String) : Assignment :=
  fun other => if other = name then object else σ other

@[simp] theorem Assignment.bind_same (σ : Assignment) (name object : String) :
    σ.bind name object name = object := by simp [bind]

/-- The variables of a declaration, each with its type. -/
def typedNames (lists : List TypedList) : List (String × Option String) :=
  lists.flatMap fun l => l.names.map fun name => (name, l.type)

/-- The types at most `depth` levels below a type, itself included. -/
def subtypes (groups : List TypedList) : Nat → String → List String
  | 0, type => [type]
  | depth + 1, type =>
    type :: (groups.filter fun g => g.type == some type).flatMap fun g =>
      g.names.flatMap (subtypes groups depth)

/-- Whether objects of a type may stand where another is required. A hierarchy without cycles is
at most as deep as it has groups; every type lies below `object`. -/
def Domain.admits (d : Domain) (required : Option String) (type : String) : Bool :=
  match required with
  | none => true
  | some r => r == "object" || (subtypes d.types d.types.length r).contains type

/-- A type without subtypes has no objects but its own. -/
theorem Domain.admits_of_leaf {d : Domain} {required type : String} (named : required ≠ "object")
    (leaf : ∀ g ∈ d.types, g.type ≠ some required) :
    d.admits (some required) type = true ↔ type = required := by
  have alone : subtypes d.types d.types.length required = [required] := by
    have below : d.types.filter (fun g => g.type == some required) = [] := by
      simpa [List.filter_eq_nil_iff] using leaf
    cases d.types.length <;> simp [subtypes, below]
  simp [admits, named, alone]

theorem Domain.mem_of_action? {d : Domain} {name : String} {action : Action}
    (found : d.action? name = some action) : action ∈ d.actions ∧ action.name = name :=
  ⟨List.mem_of_find?_eq_some found, by simpa using List.find?_some found⟩

structure Task where
  domain : Domain
  problem : Problem

/-- An action by name, with an object for every parameter. -/
structure Step where
  action : String
  arguments : List String
  deriving DecidableEq

namespace Task

variable {t : Task} {s : State}

/-- The objects of a type. -/
def members (t : Task) (type : Option String) : List String :=
  (t.problem.objects.filter fun o => t.domain.admits type o.type).map Object.name

theorem mem_members {type : Option String} {name : String} :
    name ∈ t.members type ↔
      ∃ o ∈ t.problem.objects, t.domain.admits type o.type = true ∧ o.name = name := by
  simp [members, and_assoc]

/-- All ways to bind variables to objects of their types, on top of other bindings. -/
def bindings (t : Task) : List (String × Option String) → Assignment → List Assignment
  | [], σ => [σ]
  | (name, type) :: more, σ =>
    (t.members type).flatMap fun object => t.bindings more (σ.bind name object)

@[simp] theorem mem_bindings_nil {σ τ : Assignment} : τ ∈ t.bindings [] σ ↔ τ = σ := by
  simp [bindings]

@[simp] theorem mem_bindings_cons {name : String} {type : Option String}
    {more : List (String × Option String)} {σ τ : Assignment} :
    τ ∈ t.bindings ((name, type) :: more) σ ↔
      ∃ object ∈ t.members type, τ ∈ t.bindings more (σ.bind name object) := by
  simp [bindings]

mutual

/-- Truth of a condition. Effects are no conditions and never hold. -/
def holds (t : Task) (s : State) : Formula → Assignment → Bool
  | .atom predicate arguments, σ => s.fact ⟨predicate, arguments.map σ⟩
  | .not body, σ => !t.holds s body σ
  | .and conjuncts, σ => t.allHold s conjuncts σ
  | .imply premise conclusion, σ => !t.holds s premise σ || t.holds s conclusion σ
  | .forall quantified body, σ =>
    (t.bindings (typedNames quantified) σ).all fun τ => t.holds s body τ
  | .value fluent amount, _ => s.value fluent == amount
  | .when _ _, _ | .increase _ _, _ => false

def allHold (t : Task) (s : State) : List Formula → Assignment → Bool
  | [], _ => true
  | f :: fs, σ => t.holds s f σ && t.allHold s fs σ

end

mutual

/-- What an effect changes in a state. Conditions are no effects and change nothing. -/
def changes (t : Task) (s : State) : Formula → Assignment → List Change
  | .atom predicate arguments, σ => [.add ⟨predicate, arguments.map σ⟩]
  | .not (.atom predicate arguments), σ => [.delete ⟨predicate, arguments.map σ⟩]
  | .and conjuncts, σ => t.allChanges s conjuncts σ
  | .forall quantified body, σ =>
    (t.bindings (typedNames quantified) σ).flatMap fun τ => t.changes s body τ
  | .when condition effect, σ => if t.holds s condition σ then t.changes s effect σ else []
  | .increase fluent amount, _ => [.raise fluent amount]
  | .not _, _ | .imply _ _, _ | .value _ _, _ => []

def allChanges (t : Task) (s : State) : List Formula → Assignment → List Change
  | [], _ => []
  | f :: fs, σ => t.changes s f σ ++ t.allChanges s fs σ

end

theorem allHold_eq_true {fs : List Formula} {σ : Assignment} :
    t.allHold s fs σ = true ↔ ∀ f ∈ fs, t.holds s f σ = true := by
  induction fs with
  | nil => simp [allHold]
  | cons f fs ih => simp [allHold, ih]

/-- Parameters bound to objects, if there are as many objects and each is of the right type. -/
def assign? (t : Task) : List (String × Option String) → List String → Option Assignment
  | [], [] => some id
  | (name, type) :: more, object :: objects =>
    if object ∈ t.members type then (t.assign? more objects).map (·.bind name object) else none
  | _, _ => none

theorem assign?_nil {objects : List String} {σ : Assignment} :
    t.assign? [] objects = some σ ↔ objects = [] ∧ σ = id := by
  cases objects <;> simp [assign?, eq_comm]

theorem assign?_cons {name : String} {type : Option String} {more : List (String × Option String)}
    {objects : List String} {σ : Assignment} :
    t.assign? ((name, type) :: more) objects = some σ ↔
      ∃ o os τ, objects = o :: os ∧ o ∈ t.members type ∧ t.assign? more os = some τ ∧
        σ = τ.bind name o := by
  cases objects with
  | nil => simp [assign?]
  | cons o os =>
    simp only [assign?]
    constructor
    · intro assigned
      split at assigned
      next member =>
        obtain ⟨τ, rest, rfl⟩ := Option.map_eq_some_iff.mp assigned
        exact ⟨o, os, τ, rfl, member, rest, rfl⟩
      next => contradiction
    · rintro ⟨_, _, τ, same, member, rest, rfl⟩
      obtain ⟨rfl, rfl⟩ := List.cons.inj same
      simp [member, rest]

/-- The state after a step, if the step can be taken. -/
def next? (t : Task) (s : State) (step : Step) : Option State :=
  match t.domain.action? step.action with
  | none => none
  | some action =>
    match t.assign? (typedNames action.parameters) step.arguments with
    | none => none
    | some σ =>
      if t.holds s action.precondition σ then some (s.apply (t.changes s action.effect σ))
      else none

theorem next?_eq_some {step : Step} {s' : State} :
    t.next? s step = some s' ↔
      ∃ action σ, t.domain.action? step.action = some action ∧
        t.assign? (typedNames action.parameters) step.arguments = some σ ∧
        t.holds s action.precondition σ = true ∧
        s' = s.apply (t.changes s action.effect σ) := by
  unfold next?
  constructor
  · intro taken
    split at taken
    next => contradiction
    next action found =>
      split at taken
      next => contradiction
      next σ assigned =>
        split at taken
        next holds => exact ⟨action, σ, found, assigned, holds, (Option.some.inj taken).symm⟩
        next => contradiction
  · rintro ⟨action, σ, found, assigned, holds, rfl⟩
    simp [found, assigned, holds]

def run? (t : Task) (s : State) (steps : List Step) : Option State := steps.foldlM t.next? s

theorem run?_append (s : State) (steps more : List Step) :
    t.run? s (steps ++ more) = (t.run? s steps).bind fun s' => t.run? s' more := by
  simp [run?, List.foldlM_append]

theorem run?_cons (s : State) (step : Step) (steps : List Step) :
    t.run? s (step :: steps) = (t.next? s step).bind fun s' => t.run? s' steps := by
  simp [run?]

/-- Facts that are not listed do not hold, and fluents that are not listed start at zero. -/
def init (t : Task) : State where
  fact a := t.problem.init.any fun
    | .atom predicate arguments => decide (a = ⟨predicate, arguments⟩)
    | _ => false
  value fluent := (t.problem.init.findSome? fun
    | .value f amount => if f = fluent then some amount else none
    | _ => none).getD 0

theorem mem_init {a : Atom} :
    a ∈ t.init ↔ Formula.atom a.predicate a.arguments ∈ t.problem.init := by
  simp only [State.mem_def, init, List.any_eq_true]
  constructor
  · rintro ⟨f, member, same⟩
    split at same
    next => exact of_decide_eq_true same ▸ member
    next => contradiction
  · intro member
    exact ⟨_, member, by simp⟩

def atGoal (t : Task) (s : State) : Bool := t.allHold s t.problem.goal id

/-- Whether a step names an action and objects of the types of its parameters. -/
def Ground (t : Task) (step : Step) : Prop :=
  ∃ action σ, t.domain.action? step.action = some action ∧
    t.assign? (typedNames action.parameters) step.arguments = some σ

instance (t : Task) (step : Step) : Decidable (t.Ground step) :=
  decidable_of_iff (((t.domain.action? step.action).bind fun action =>
      t.assign? (typedNames action.parameters) step.arguments).isSome = true) <| by
    simp [Ground, Option.isSome_iff_exists, Option.bind_eq_some_iff, exists_comm]

/-- The steps can be taken one after the other from the initial state and lead to the goal, and
the metric is worth `cost` there. -/
def Solves (t : Task) (steps : List Step) (cost : Nat) : Prop :=
  ∃ s, t.run? t.init steps = some s ∧ t.atGoal s = true ∧ s.value t.problem.metric = cost

instance (t : Task) (steps : List Step) (cost : Nat) : Decidable (t.Solves steps cost) :=
  decidable_of_iff ((t.run? t.init steps).any fun s =>
      t.atGoal s && s.value t.problem.metric == cost) <| by
    simp [Solves, Option.any_eq_true]

end Task

end AlignPlan.Planning
