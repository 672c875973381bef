/-! Lists that keep the first occurrence of each element in order of arrival. -/
namespace AlignPlan

variable {α : Type} [DecidableEq α]

/-- Appends an element unless the list has it already. -/
def appendNew (xs : List α) (x : α) : List α := if x ∈ xs then xs else xs ++ [x]

/-- The elements of a list, each once, in order of first occurrence. -/
def distinct (xs : List α) : List α := xs.foldl appendNew []

theorem mem_appendNew {xs : List α} {x y : α} : y ∈ appendNew xs x ↔ y ∈ xs ∨ y = x := by
  unfold appendNew
  split
  next h => exact ⟨.inl, fun h' => h'.elim id (· ▸ h)⟩
  next => simp

theorem mem_foldl_appendNew {xs ys : List α} {x : α} :
    x ∈ ys.foldl appendNew xs ↔ x ∈ xs ∨ x ∈ ys := by
  induction ys generalizing xs with
  | nil => simp
  | cons y ys ih => rw [List.foldl_cons, ih, mem_appendNew, List.mem_cons, or_assoc]

theorem nodup_appendNew {xs : List α} (h : xs.Nodup) (x : α) : (appendNew xs x).Nodup := by
  unfold appendNew
  split
  next => exact h
  next hx =>
    rw [List.nodup_append]
    refine ⟨h, by simp, ?_⟩
    rintro a ha b hb rfl
    exact hx (List.mem_singleton.mp hb ▸ ha)

theorem prefix_appendNew (xs : List α) (x : α) : xs <+: appendNew xs x := by
  unfold appendNew
  split
  next => exact List.prefix_refl xs
  next => exact List.prefix_append xs [x]

end AlignPlan
