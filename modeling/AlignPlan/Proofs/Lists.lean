import AlignPlan.Distinct
import Mathlib.Data.List.Forall2
import Mathlib.Data.List.Induction
import Mathlib.Data.List.Nodup

/-! What is said of lists in several places: which element stands where, lists that are related
element by element, the answers to a list of requests, and the elements of a list in the order in
which they first occur. -/
namespace AlignPlan

section Positions

variable {α : Type} {xs ys : List α} {x y : α} {k : Nat}

theorem getElem?_of_prefix (first : xs <+: ys) (found : xs[k]? = some x) : ys[k]? = some x := by
  obtain ⟨more, rfl⟩ := first
  obtain ⟨bound, _⟩ := List.getElem?_eq_some_iff.mp found
  rw [List.getElem?_append_left bound, found]

theorem getElem?_concat_eq_some_iff :
    (xs ++ [x])[k]? = some y ↔ xs[k]? = some y ∨ k = xs.length ∧ x = y := by
  rcases Nat.lt_trichotomy k xs.length with before | last | after
  · have apart : k ≠ xs.length := by omega
    rw [List.getElem?_append_left before]
    simp [apart]
  · simp [last]
  · have apart : k ≠ xs.length := by omega
    have beyond : xs.length < k := after
    have missing : (xs ++ [x])[k]? = none := List.getElem?_eq_none (by simp; omega)
    rw [missing, List.getElem?_eq_none (by omega)]
    simp [apart]

end Positions

section Related

variable {α β γ : Type} {R : α → β → Prop} {xs : List α} {ys : List β}

theorem exists_mem_of_forall₂ {y : β} (related : List.Forall₂ R xs ys) (member : y ∈ ys) :
    ∃ x ∈ xs, R x y := by
  induction related with
  | nil => cases member
  | cons here _ ih =>
    rcases List.mem_cons.mp member with rfl | later
    · exact ⟨_, List.mem_cons_self, here⟩
    · obtain ⟨x, listed, found⟩ := ih later
      exact ⟨x, List.mem_cons_of_mem _ listed, found⟩

theorem map_eq_of_forall₂ {f : α → γ} {g : β → γ} (same : ∀ x y, R x y → f x = g y)
    (related : List.Forall₂ R xs ys) : xs.map f = ys.map g := by
  induction related with
  | nil => rfl
  | cons here _ ih => rw [List.map_cons, List.map_cons, same _ _ here, ih]

theorem all_eq_of_forall₂ {p : α → Bool} {q : β → Bool} (same : ∀ x y, R x y → p x = q y)
    (related : List.Forall₂ R xs ys) : xs.all p = ys.all q := by
  have results := map_eq_of_forall₂ same related
  simpa [List.all_map] using congrArg (List.all · id) results

theorem flatMap_eq_of_forall₂ {f : α → List γ} {g : β → List γ} (same : ∀ x y, R x y → f x = g y)
    (related : List.Forall₂ R xs ys) : xs.flatMap f = ys.flatMap g := by
  rw [List.flatMap_def, List.flatMap_def, map_eq_of_forall₂ same related]

/-- Lists that are compared alike are sorted alike, so that related elements stay together. -/
theorem forall₂_mergeSort {le : α → α → Bool} {le' : β → β → Bool}
    (same : ∀ x y x' y', R x y → R x' y' → le x x' = le' y y') (related : List.Forall₂ R xs ys) :
    List.Forall₂ R (xs.mergeSort le) (ys.mergeSort le') := by
  obtain ⟨length, pairs⟩ := List.forall₂_iff_zip.mp related
  let sorted := (xs.zip ys).mergeSort fun p q => le p.1 q.1
  have firsts : sorted.map Prod.fst = xs.mergeSort le := by
    rw [List.map_mergeSort (s := le) (f := Prod.fst) fun _ _ _ _ => rfl,
      List.map_fst_zip (Nat.le_of_eq length)]
  have seconds : sorted.map Prod.snd = ys.mergeSort le' := by
    rw [List.map_mergeSort (s := le') (f := Prod.snd) fun p hp q hq =>
        same _ _ _ _ (pairs hp) (pairs hq),
      List.map_snd_zip (Nat.le_of_eq length.symm)]
  rw [← firsts, ← seconds, List.forall₂_map_left_iff, List.forall₂_map_right_iff,
    List.forall₂_same]
  intro p member
  exact pairs (List.mem_mergeSort.mp member)

end Related

/-- The last of several values that replace one another. -/
theorem foldl_some_eq_getLast? {α : Type} (xs : List α) :
    xs.foldl (fun _ x => some x) none = xs.getLast? := by
  induction xs using List.reverseRecOn with
  | nil => rfl
  | append_singleton xs x _ => simp

section Answers

variable {σ σ' ι ο ο' : Type} {step : σ → ι → ο × σ} {step' : σ' → ι → ο' × σ'}

/-- The answers to requests that are made in turn, and the state that they lead to. -/
def serve (step : σ → ι → ο × σ) : σ → List ι → List ο × σ
  | s, [] => ([], s)
  | s, x :: xs => ((step s x).1 :: (serve step (step s x).2 xs).1, (serve step (step s x).2 xs).2)

theorem serve_append (s : σ) (xs ys : List ι) : serve step s (xs ++ ys) =
    ((serve step s xs).1 ++ (serve step (serve step s xs).2 ys).1,
      (serve step (serve step s xs).2 ys).2) := by
  induction xs generalizing s with
  | nil => rfl
  | cons x xs ih => rw [List.cons_append, serve, ih, serve, List.cons_append]

theorem serve_concat (s : σ) (xs : List ι) (x : ι) : serve step s (xs ++ [x]) =
    ((serve step s xs).1 ++ [(step (serve step s xs).2 x).1],
      (step (serve step s xs).2 x).2) := serve_append s xs [x]

theorem length_serve (s : σ) (xs : List ι) : (serve step s xs).1.length = xs.length := by
  induction xs generalizing s with
  | nil => rfl
  | cons x xs ih => rw [serve, List.length_cons, List.length_cons, ih]

/-- Systems that stay related answer a series of requests alike if they do so one at a time. -/
theorem serve_of_related {R : σ → σ' → Prop} {f : ο → ο'}
    (one : ∀ s s' x, R s s' → (step' s' x).1 = f (step s x).1 ∧ R (step s x).2 (step' s' x).2)
    {s : σ} {s' : σ'} (related : R s s') (xs : List ι) :
    (serve step' s' xs).1 = (serve step s xs).1.map f ∧
      R (serve step s xs).2 (serve step' s' xs).2 := by
  induction xs generalizing s s' with
  | nil => exact ⟨rfl, related⟩
  | cons x xs ih =>
    obtain ⟨answer, kept⟩ := one s s' x related
    obtain ⟨answers, last⟩ := ih kept
    exact ⟨by rw [serve, serve, List.map_cons, answer, answers], last⟩

end Answers

section Occurrences

variable {α : Type} [DecidableEq α]

theorem mem_distinct {xs : List α} {x : α} : x ∈ distinct xs ↔ x ∈ xs := by
  simp [distinct, mem_foldl_appendNew]

/-- `ys` has the members of `xs`, each once, in the order in which they first occur there. -/
structure FirstOccurrences (xs ys : List α) : Prop where
  mem_iff : ∀ x, x ∈ ys ↔ x ∈ xs
  once : ys.Nodup
  order : ys.Pairwise fun x y => xs.idxOf x < xs.idxOf y

theorem firstOccurrences_distinct (xs : List α) : FirstOccurrences xs (distinct xs) := by
  refine ⟨fun x => mem_distinct, ?_, ?_⟩
  · exact List.foldlRecOn xs appendNew List.nodup_nil fun _ nodup x _ => nodup_appendNew nodup x
  · induction xs using List.reverseRecOn with
    | nil => exact List.Pairwise.nil
    | append_singleton xs x ih =>
      have kept : (distinct xs).Pairwise fun y z => (xs ++ [x]).idxOf y < (xs ++ [x]).idxOf z := by
        refine ih.imp_of_mem fun {y z} hy hz before => ?_
        rwa [List.idxOf_append_of_mem (mem_distinct.mp hy), List.idxOf_append_of_mem
          (mem_distinct.mp hz)]
      have step : distinct (xs ++ [x]) = appendNew (distinct xs) x := by simp [distinct]
      rw [step, appendNew]
      split
      next => exact kept
      next fresh =>
        rw [mem_distinct] at fresh
        refine List.pairwise_append.mpr ⟨kept, List.pairwise_singleton _ _, ?_⟩
        intro y listed z last
        rw [List.mem_singleton.mp last, List.idxOf_append_of_mem (mem_distinct.mp listed),
          List.idxOf_append_of_notMem fresh]
        have := List.idxOf_lt_length_of_mem (mem_distinct.mp listed)
        omega

end Occurrences

end AlignPlan
