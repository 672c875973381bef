import AlignPlan.Objects
import Mathlib.Data.List.Nodup

/-! The table of objects as it is filled, up to the first object whose name is taken. -/
namespace AlignPlan

/-- The object that a registration makes. -/
def Registration.object (r : Registration) : Planning.Object := ⟨r.name.render, r.type⟩

namespace ObjectTable

def keys (t : ObjectTable) : List String := t.entries.map fun e => Name.caseless e.name

theorem holder?_eq_none {t : ObjectTable} {name : String} :
    t.holder? name = none ↔ Name.caseless name ∉ t.keys := by
  simp [holder?, keys, List.find?_eq_none]

theorem addAll_eq_ok {t t' : ObjectTable} {rs : List Registration} (distinct : t.keys.Nodup) :
    t.addAll rs = .ok t' ↔
      (t.keys ++ rs.map fun r => Name.caseless r.name.render).Nodup ∧
      t' = ⟨t.entries ++ rs.map Registration.entry⟩ := by
  induction rs generalizing t with
  | nil => simp [addAll, distinct, eq_comm]
  | cons r rs ih =>
    unfold addAll add
    cases found : t.holder? r.name.render with
    | some holder =>
      have taken : Name.caseless r.name.render ∈ t.keys := by
        by_contra free
        rw [holder?_eq_none.mpr free] at found
        contradiction
      simp only [List.map_cons, reduceCtorEq, false_iff, not_and]
      intro nodup
      exact absurd rfl ((List.nodup_append.mp nodup).2.2 _ taken _ List.mem_cons_self)
    | none =>
      have free := holder?_eq_none.mp found
      have keys : (⟨t.entries ++ [r.entry]⟩ : ObjectTable).keys =
          t.keys ++ [Name.caseless r.name.render] := by simp [ObjectTable.keys, Registration.entry]
      have grown : (⟨t.entries ++ [r.entry]⟩ : ObjectTable).keys.Nodup := by
        rw [keys, List.nodup_append]
        exact ⟨distinct, List.nodup_singleton _, by simp; rintro k member rfl; exact free member⟩
      simp only [ih grown, keys, List.append_assoc, List.singleton_append, List.map_cons]

/-- The first object that cannot be added is one whose name an earlier object has. -/
theorem exists_of_addAll_eq_error {t : ObjectTable} {rs : List Registration} {clash : Clash}
    (failed : t.addAll rs = .error clash) : ∃ before r after, rs = before ++ r :: after ∧
      clash.newcomer = r.entry ∧ clash.holder ∈ t.entries ++ before.map Registration.entry ∧
      Name.caseless clash.holder.name = Name.caseless clash.newcomer.name := by
  induction rs generalizing t with
  | nil => cases failed
  | cons r rs ih =>
    unfold addAll add at failed
    cases found : t.holder? r.name.render with
    | some holder =>
      simp only [found] at failed
      cases failed
      have taken := List.mem_of_find?_eq_some found
      have alike := List.find?_some found
      exact ⟨[], r, rs, rfl, rfl, by simpa using taken, by simpa [Registration.entry] using alike⟩
    | none =>
      simp only [found] at failed
      obtain ⟨before, r', after, rfl, newcomer, holder, alike⟩ := ih failed
      exact ⟨r :: before, r', after, rfl, newcomer, by simpa using holder, alike⟩

end ObjectTable

end AlignPlan
