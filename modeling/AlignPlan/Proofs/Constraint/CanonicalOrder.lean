import AlignPlan.Constraint
import Mathlib.Data.List.Nodup

/-! The canonical order of ids is a total order that ties no two ids, so constraints with ids of
their own have one canonical order, however they are listed. -/
namespace AlignPlan

theorem Decimal.word64?_lt {text : String} {n : Nat} (h : word64? text = some n) :
    n < UInt64.size := by
  simp only [word64?, Option.ite_none_right_eq_some, Option.some.injEq, Bool.and_eq_true,
    decide_eq_true_eq] at h
  obtain ⟨⟨_, fits⟩, rfl⟩ := h
  exact fits

namespace AutomatonId

/-- The number an id compares by. Ids that are no 64-bit numeral come after all that are. -/
def rank (id : AutomatonId) : Nat := (Decimal.word64? id.text).getD UInt64.size

theorem compare_eq_compareLex : compare = compareLex (compareOn rank) (compareOn text) := by
  funext a b
  unfold compare compareLex compareOn rank
  cases first : Decimal.word64? a.text with
  | some m =>
    have := Decimal.word64?_lt first
    cases second : Decimal.word64? b.text with
    | some n => rfl
    | none => simp [Nat.compare_eq_lt.mpr this]
  | none =>
    cases second : Decimal.word64? b.text with
    | some n =>
      have := Decimal.word64?_lt second
      simp [Nat.compare_eq_gt.mpr this]
    | none => simp

instance : Std.TransCmp compare := by
  rw [compare_eq_compareLex]
  infer_instance

instance : Std.LawfulEqCmp compare where
  eq_of_compare {a b} tie := by
    rw [compare_eq_compareLex, compareLex, Ordering.then_eq_eq] at tie
    have same : a.text = b.text := Std.LawfulEqOrd.eq_of_compare tie.2
    cases a
    cases b
    simpa using same

theorem le_eq_isLE (a b : AutomatonId) : a.le b = (compare a b).isLE := by
  unfold le
  cases compare a b <;> rfl

theorem le_trans {a b c : AutomatonId} (ab : a.le b = true) (bc : b.le c = true) :
    a.le c = true := by
  rw [le_eq_isLE] at *
  exact Std.TransCmp.isLE_trans ab bc

theorem le_total (a b : AutomatonId) : (a.le b || b.le a) = true := by
  have swap : compare b a = (compare a b).swap := Std.OrientedCmp.eq_swap
  rw [le_eq_isLE, le_eq_isLE, swap]
  cases compare a b <;> rfl

theorem le_antisymm {a b : AutomatonId} (ab : a.le b = true) (ba : b.le a = true) : a = b := by
  rw [le_eq_isLE] at ab ba
  exact Std.LawfulEqCmp.eq_of_compare (Std.OrientedCmp.isLE_antisymm ab ba)

end AutomatonId

theorem pairwise_canonicalOrder (constraints : List Constraint) :
    (canonicalOrder constraints).Pairwise fun a b => a.id.le b.id = true := by
  unfold canonicalOrder
  apply List.pairwise_mergeSort
  · intro a b c ab bc
    exact AutomatonId.le_trans ab bc
  · intro a b
    exact AutomatonId.le_total a.id b.id

/-- Constraints that tie would keep the order they are listed in; with ids of their own none
do. -/
theorem canonicalOrder_eq_of_perm {constraints others : List Constraint}
    (distinct : constraints.Pairwise fun a b => a.id ≠ b.id) (same : constraints.Perm others) :
    canonicalOrder constraints = canonicalOrder others := by
  have sorted : (canonicalOrder constraints).Perm constraints := List.mergeSort_perm _ _
  have otherSorted : (canonicalOrder others).Perm others := List.mergeSort_perm _ _
  have apart : (constraints.map Constraint.id).Nodup := List.pairwise_map.mpr distinct
  apply List.Perm.eq_of_pairwise _ (pairwise_canonicalOrder constraints)
    (pairwise_canonicalOrder others) ((sorted.trans same).trans otherSorted.symm)
  intro a b first second ab ba
  apply List.inj_on_of_nodup_map apart (sorted.mem_iff.mp first)
    (same.mem_iff.mpr (otherSorted.mem_iff.mp second))
  exact AutomatonId.le_antisymm ab ba

end AlignPlan
