import AlignPlan.Proofs.Planning.Semantics
import Mathlib.Data.List.Nodup

/-! Formulas that are closed and well typed. Every atom has a declared predicate and one argument
for each parameter, and an argument is a variable of an enclosing quantifier or an object that is
listed once, of the type of the parameter or of a type below it. -/
namespace AlignPlan.Planning

/-- Variables with their types, those bound last in front. -/
abbrev Scope := List (String × Option String)

def isVariable (name : String) : Bool := name.toList.head? == some '?'

/-- The element of a list that has no other. -/
def only? {α : Type} : List α → Option α
  | [x] => some x
  | _ => none

/-- Keys that do not repeat find the element they belong to. -/
theorem only?_filter_eq_some {α : Type} {key : α → String} {xs : List α} {x : α}
    (distinct : (xs.map key).Nodup) (member : x ∈ xs) :
    only? (xs.filter fun y => key y == key x) = some x := by
  induction xs with
  | nil => simp at member
  | cons y ys ih =>
    obtain ⟨fresh, distinct⟩ := List.nodup_cons.mp distinct
    rcases List.mem_cons.mp member with rfl | later
    · have others : (ys.filter fun y => key y == key x) = [] := by
        simp only [List.filter_eq_nil_iff, beq_iff_eq]
        exact fun y among same => fresh (same ▸ List.mem_map_of_mem among)
      simp [others, only?]
    · have other : key y ≠ key x := fun same => fresh (same ▸ List.mem_map_of_mem later)
      simpa [other] using ih distinct later

theorem mem_of_only?_filter {α : Type} {p : α → Bool} {xs : List α} {x : α}
    (found : only? (xs.filter p) = some x) : x ∈ xs ∧ p x = true := by
  unfold only? at found
  split at found
  next same =>
    obtain rfl := Option.some.inj found
    exact List.mem_filter.mp (same ▸ List.mem_singleton_self _)
  next => contradiction

/-- The object of a name that is listed exactly once. -/
def Problem.object? (p : Problem) (name : String) : Option Object :=
  only? (p.objects.filter fun o => o.name == name)

/-- The predicate of a name that is declared exactly once. -/
def Domain.predicate? (d : Domain) (name : String) : Option Predicate :=
  only? (d.predicates.filter fun p => p.name == name)

namespace Task

variable {t : Task} {scope : Scope} {name : String} {required : Option String}

/-- A variable without a type stands for any object. -/
def typeOf? (t : Task) (scope : Scope) (name : String) : Option String :=
  if isVariable name then (scope.find? fun v => v.1 == name).map fun v => v.2.getD "object"
  else (t.problem.object? name).map Object.type

/-- Whether a term may stand where a type is required. -/
def fits (t : Task) (scope : Scope) (required : Option String) (name : String) : Bool :=
  (t.typeOf? scope name).any (t.domain.admits required)

/-- One argument for every parameter. -/
def allFit (t : Task) (scope : Scope) : List (String × Option String) → List String → Bool
  | [], [] => true
  | (_, required) :: parameters, argument :: arguments =>
    t.fits scope required argument && t.allFit scope parameters arguments
  | _, _ => false

mutual

def wellTyped (t : Task) (scope : Scope) : Formula → Bool
  | .atom predicate arguments =>
    (t.domain.predicate? predicate).any fun p =>
      t.allFit scope (typedNames p.parameters) arguments
  | .not body => t.wellTyped scope body
  | .and conjuncts => t.allWellTyped scope conjuncts
  | .imply left right | .when left right => t.wellTyped scope left && t.wellTyped scope right
  | .forall quantified body => t.wellTyped ((typedNames quantified).reverse ++ scope) body
  | .increase fluent _ | .value fluent _ => t.domain.functions.contains fluent

def allWellTyped (t : Task) (scope : Scope) : List Formula → Bool
  | [] => true
  | f :: fs => t.wellTyped scope f && t.allWellTyped scope fs

end

theorem allFit_iff {parameters : List (String × Option String)} {arguments : List String} :
    t.allFit scope parameters arguments = true ↔
      List.Forall₂ (fun v argument => t.fits scope v.2 argument = true) parameters arguments := by
  induction parameters generalizing arguments with
  | nil => cases arguments <;> simp [allFit]
  | cons v vs ih => cases arguments <;> simp [allFit, ih]

theorem wellTyped_atom {predicate : Predicate} {arguments : List String}
    (declared : t.domain.predicate? name = some predicate) :
    t.wellTyped scope (.atom name arguments) = true ↔ List.Forall₂
      (fun v argument => t.fits scope v.2 argument = true) (typedNames predicate.parameters)
      arguments := by
  simp [wellTyped, declared, allFit_iff]

/-- Objects of a type fit it, if no two objects share a name. -/
theorem fits_of_mem_members (distinct : (t.problem.objects.map Object.name).Nodup)
    (constant : isVariable name = false) (listed : name ∈ t.members required) :
    t.fits scope required name = true := by
  obtain ⟨o, member, admitted, rfl⟩ := mem_members.mp listed
  have found : t.problem.object? o.name = some o := only?_filter_eq_some distinct member
  simp [fits, typeOf?, constant, found, admitted]

theorem fits_mono {wider : Option String}
    (below : ∀ type, t.domain.admits required type = true → t.domain.admits wider type = true)
    (fit : t.fits scope required name = true) : t.fits scope wider name = true := by
  rw [fits, Option.any_eq_true] at fit ⊢
  obtain ⟨type, found, admitted⟩ := fit
  exact ⟨type, found, below type admitted⟩

/-- Where no variable is in scope, what fits is an object. -/
theorem mem_objects_of_fits (fit : t.fits [] required name = true) :
    ∃ o ∈ t.problem.objects, o.name = name := by
  cases kind : isVariable name with
  | true => simp [fits, typeOf?, kind] at fit
  | false =>
    simp only [fits, typeOf?, kind, Bool.false_eq_true, if_false, Option.any_map,
      Option.any_eq_true] at fit
    obtain ⟨o, found, _⟩ := fit
    obtain ⟨member, same⟩ := mem_of_only?_filter found
    exact ⟨o, member, by simpa using same⟩

theorem mem_objects_of_allFit {parameters : List (String × Option String)}
    {arguments : List String} (fit : t.allFit [] parameters arguments = true) :
    ∀ argument ∈ arguments, ∃ o ∈ t.problem.objects, o.name = argument := by
  rw [allFit_iff] at fit
  induction fit with
  | nil => simp
  | cons first _ ih => exact List.forall_mem_cons.mpr ⟨mem_objects_of_fits first, ih⟩

/-- A well-typed fact is made of a declared predicate and objects. -/
theorem of_wellTyped_atom {arguments : List String}
    (typed : t.wellTyped [] (.atom name arguments) = true) :
    (∃ p ∈ t.domain.predicates, p.name = name) ∧
      ∀ argument ∈ arguments, ∃ o ∈ t.problem.objects, o.name = argument := by
  rw [wellTyped, Option.any_eq_true] at typed
  obtain ⟨predicate, found, fit⟩ := typed
  obtain ⟨member, same⟩ := mem_of_only?_filter found
  exact ⟨⟨predicate, member, by simpa using same⟩, mem_objects_of_allFit fit⟩

end Task

end AlignPlan.Planning
