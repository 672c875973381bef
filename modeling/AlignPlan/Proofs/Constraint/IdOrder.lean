import AlignPlan.Proofs.Constraint.CanonicalOrder
import Mathlib.Data.String.Basic

/-! The order of ids, kind by kind: numerals before all other ids and by value, everything else
byte by byte. No two ids tie, so a list of ids can be sorted in one way only. -/
namespace AlignPlan.AutomatonId

section Bytes

/-- The bytes of an id in UTF-8. -/
def bytes (id : AutomatonId) : List UInt8 := id.text.toUTF8.data.toList

theorem val_lt_of_isAlphanum {c : Char} (h : c.isAlphanum = true) : c.val.toNat < 128 := by
  delta Char.isAlphanum Char.isAlpha Char.isUpper Char.isLower Char.isDigit at h
  simp only [Bool.or_eq_true, Bool.and_eq_true, decide_eq_true_eq, ge_iff_le,
    UInt32.le_iff_toNat_le] at h
  simp at h
  change c.toNat < 128
  omega

/-- Letters and digits take one byte each. -/
theorem bytes_eq_map (id : AutomatonId) :
    id.bytes = id.text.toList.map fun c => c.val.toUInt8 := by
  have encoded : id.text.toUTF8 = (id.text.toList.flatMap String.utf8EncodeChar).toByteArray :=
    String.utf8Encode_toList.symm
  have single : ∀ c ∈ id.text.toList, String.utf8EncodeChar c = [c.val.toUInt8] := by
    intro c member
    apply String.utf8EncodeChar_eq_singleton
    rw [Char.utf8Size_eq_one_iff, UInt32.le_iff_toNat_le]
    exact Nat.le_of_lt_succ (val_lt_of_isAlphanum (List.all_eq_true.mp id.alphanumeric c member))
  rw [bytes, encoded, List.data_toByteArray, List.toList_toArray, List.flatMap_congr single,
    List.map_eq_flatMap]

theorem map_lt_map_iff {α β : Type} [LT α] [LT β] {f : α → β} {xs ys : List α}
    (less : ∀ x ∈ xs, ∀ y ∈ ys, f x < f y ↔ x < y) (same : ∀ x ∈ xs, ∀ y ∈ ys, f x = f y ↔ x = y) :
    xs.map f < ys.map f ↔ xs < ys := by
  induction xs generalizing ys with
  | nil => cases ys <;> simp
  | cons x xs ih =>
    cases ys with
    | nil => simp
    | cons y ys =>
      simp only [List.forall_mem_cons] at less same
      rw [List.map_cons, List.map_cons, List.cons_lt_cons_iff, List.cons_lt_cons_iff,
        less.1.1, same.1.1, ih (fun x listed => (less.2 x listed).2) fun x listed =>
          (same.2 x listed).2]

theorem toNat_toUInt8 {c : Char} (h : c.isAlphanum = true) : c.val.toUInt8.toNat = c.toNat := by
  have small := val_lt_of_isAlphanum h
  rw [UInt32.toNat_toUInt8]
  exact Nat.mod_eq_of_lt (by omega)

/-- To compare ids as texts is to compare them byte by byte. -/
theorem bytes_lt_iff {a b : AutomatonId} : a.bytes < b.bytes ↔ a.text < b.text := by
  have byte (id : AutomatonId) : ∀ c ∈ id.text.toList, c.val.toUInt8.toNat = c.toNat :=
    fun c member => toNat_toUInt8 (List.all_eq_true.mp id.alphanumeric c member)
  rw [bytes_eq_map, bytes_eq_map, String.lt_iff_toList_lt]
  apply map_lt_map_iff
  · intro c first d second
    rw [UInt8.lt_iff_toNat_lt, byte a c first, byte b d second, Char.lt_def,
      UInt32.lt_iff_toNat_lt]
    rfl
  · intro c first d second
    rw [← UInt8.toNat_inj, byte a c first, byte b d second, Char.toNat_inj]

end Bytes

/-- The first id comes before the second. -/
inductive Precedes (a b : AutomatonId) : Prop
  | ofNumber {m n : Nat} (first : Decimal.word64? a.text = some m)
      (second : Decimal.word64? b.text = some n) (less : m < n)
  | ofNumeral {n : Nat} (first : Decimal.word64? a.text = some n)
      (second : Decimal.word64? b.text = some n) (less : a.bytes < b.bytes)
  | ofKind {m : Nat} (first : Decimal.word64? a.text = some m)
      (second : Decimal.word64? b.text = none)
  | ofText (first : Decimal.word64? a.text = none) (second : Decimal.word64? b.text = none)
      (less : a.bytes < b.bytes)

theorem compare_eq_lt_iff {a b : AutomatonId} : compare a b = .lt ↔ a.Precedes b := by
  constructor
  · intro less
    unfold compare at less
    cases first : Decimal.word64? a.text with
    | some m =>
      cases second : Decimal.word64? b.text with
      | some n =>
        simp only [first, second, Ordering.then_eq_lt, Nat.compare_eq_eq,
          compare_lt_iff_lt, ← bytes_lt_iff] at less
        rcases less with less | ⟨rfl, less⟩
        · exact .ofNumber first second less
        · exact .ofNumeral first second less
      | none => exact .ofKind first second
    | none =>
      cases second : Decimal.word64? b.text with
      | some n => simp [first, second] at less
      | none =>
        simp only [first, second, compare_lt_iff_lt, ← bytes_lt_iff] at less
        exact .ofText first second less
  · intro precedes
    unfold compare
    cases precedes with
    | ofNumber first second less => simp [first, second, Nat.compare_eq_lt.mpr less]
    | ofNumeral first second less =>
      simp [first, second, compare_lt_iff_lt.mpr (bytes_lt_iff.mp less)]
    | ofKind first second => simp [first, second]
    | ofText first second less =>
      simp [first, second, compare_lt_iff_lt.mpr (bytes_lt_iff.mp less)]

theorem compare_eq_eq_iff {a b : AutomatonId} : compare a b = .eq ↔ a.text = b.text := by
  rw [text_inj]
  exact Std.LawfulEqCmp.compare_eq_iff_eq

/-- A list of ids has one sorted order. -/
theorem mergeSort_eq_of_perm {ids others : List AutomatonId} (same : ids.Perm others) :
    ids.mergeSort le = others.mergeSort le := by
  have sorted (ids : List AutomatonId) : (ids.mergeSort le).Pairwise fun a b => a.le b = true := by
    apply List.pairwise_mergeSort
    · intro a b c ab bc
      exact le_trans ab bc
    · exact le_total
  have perm : (ids.mergeSort le).Perm (others.mergeSort le) :=
    ((List.mergeSort_perm ids le).trans same).trans (List.mergeSort_perm others le).symm
  apply List.Perm.eq_of_pairwise _ (sorted ids) (sorted others) perm
  intro a b _ _ ab ba
  exact le_antisymm ab ba

/-- Ids are in a strict total order: numerals come first and compare as numbers, ties between them
and all other ids are settled byte by byte, and only an id itself ties with it. So sorting a list
of ids does not depend on the order they are listed in. -/
theorem compare_totalOrder :
    (∀ a b : AutomatonId, (compare a b = .lt ↔ a.Precedes b) ∧
      (compare a b = .eq ↔ a.text = b.text) ∧ compare b a = (compare a b).swap) ∧
    (∀ a b c : AutomatonId, compare a b ≠ .gt → compare b c ≠ .gt → compare a c ≠ .gt) ∧
    ∀ ids others : List AutomatonId, ids.Perm others →
      ids.mergeSort le = others.mergeSort le := by
  refine ⟨fun a b => ⟨compare_eq_lt_iff, compare_eq_eq_iff, Std.OrientedCmp.eq_swap⟩, ?_,
    fun _ _ => mergeSort_eq_of_perm⟩
  intro a b c first second
  exact bne_iff_ne.mp (le_trans (bne_iff_ne.mpr first) (bne_iff_ne.mpr second))

end AlignPlan.AutomatonId

namespace AlignPlan

namespace Sample

def padded : AutomatonId := ⟨"0042", by decide, by decide⟩

/-- A numeral that is no 64-bit word. -/
def oversized : AutomatonId := ⟨"18446744073709551616", by decide, by decide⟩

def mixedCase : AutomatonId := ⟨"aB", by decide, by decide⟩

/-- In order, though neither by their texts nor by their lengths. -/
def ids : List AutomatonId :=
  [padded, ⟨"42", by decide, by decide⟩, ⟨"100", by decide, by decide⟩, oversized,
    ⟨"9x", by decide, by decide⟩, ⟨"Zz", by decide, by decide⟩, mixedCase]

end Sample

namespace AutomatonId

theorem compare_totalOrder_sample :
    compare Sample.padded Sample.oversized ≠ .gt ∧
    compare Sample.oversized Sample.mixedCase ≠ .gt ∧
    compare Sample.padded Sample.mixedCase ≠ .gt ∧
    Sample.ids.reverse.Perm Sample.ids ∧ Sample.ids.reverse.mergeSort le = Sample.ids := by
  obtain ⟨_, transitive, sorting⟩ := compare_totalOrder
  have first : compare Sample.padded Sample.oversized ≠ .gt := by decide +kernel
  have second : compare Sample.oversized Sample.mixedCase ≠ .gt := by decide +kernel
  have perm : Sample.ids.reverse.Perm Sample.ids := List.reverse_perm Sample.ids
  have sorted : Sample.ids.mergeSort le = Sample.ids :=
    List.mergeSort_of_pairwise (by decide +kernel)
  refine ⟨first, second, transitive _ _ _ first second, perm, ?_⟩
  rw [sorting _ _ perm, sorted]

end AutomatonId

end AlignPlan
