import AlignPlan.Objects

/-! Names that differ in letter case at most, which the planning language takes for the same. All
objects of a kind other than activities start with one letter, and the parts of their names can be
told from each other, so objects have names that are alike exactly if the parts are. -/
namespace AlignPlan

/-- What comes before a separator that it does not have is told from what comes after. -/
theorem append_separator_inj {α : Type} {separator : α} {xs ys us vs : List α}
    (hx : separator ∉ xs) (hy : separator ∉ ys) :
    xs ++ separator :: us = ys ++ separator :: vs ↔ xs = ys ∧ us = vs := by
  induction xs generalizing ys with
  | nil =>
    cases ys with
    | nil => simp
    | cons y ys => simp [(List.ne_and_not_mem_of_not_mem_cons hy).1]
  | cons x xs ih =>
    cases ys with
    | nil => simp [(List.ne_and_not_mem_of_not_mem_cons hx).1.symm]
    | cons y ys =>
      have later := ih (List.not_mem_of_not_mem_cons hx) (List.not_mem_of_not_mem_cons hy)
      simp [later, and_assoc]

theorem AutomatonId.underscore_not_mem (id : AutomatonId) : '_' ∉ id.text.toList := by
  intro member
  have letter := List.all_eq_true.mp id.alphanumeric _ member
  exact absurd letter (by decide)

namespace Name

/-- Texts that differ in letter case at most. -/
def Alike (a b : String) : Prop := caseless a = caseless b

variable {a b : String}

theorem Alike.symm (alike : Alike a b) : Alike b a := Eq.symm alike

theorem toList_caseless (a : String) : (caseless a).toList = a.toList.map Char.toLower :=
  String.toList_map

theorem alike_iff : Alike a b ↔ a.toList.map Char.toLower = b.toList.map Char.toLower := by
  rw [Alike, ← String.toList_inj, toList_caseless, toList_caseless]

theorem alike_append (lead : String) : Alike (lead ++ a) (lead ++ b) ↔ Alike a b := by
  simp [alike_iff]

theorem toLower_eq_underscore {c : Char} : c.toLower = '_' ↔ c = '_' := by
  by_cases capital : c.val ≥ 'A'.val ∧ c.val ≤ 'Z'.val
  · have lowered : c.toLower = _ := dif_pos capital
    simp only [lowered, Char.ext_iff]
    grind
  · rw [show c.toLower = c from dif_neg capital]

theorem toLower_of_isDigit {c : Char} (digit : c.isDigit = true) : c.toLower = c := by
  refine dif_neg ?_
  simp only [Char.isDigit] at digit
  grind

theorem caseless_decimal (n : Nat) : caseless (Decimal.render n) = Decimal.render n := by
  rw [← String.toList_inj, toList_caseless, List.map_congr_left, List.map_id]
  exact fun _ member => toLower_of_isDigit (Decimal.isDigit_of_mem_render member)

/-- An id ends at the first underscore, so it is told from the name behind it. -/
theorem alike_join {i j : AutomatonId} :
    Alike (i.text ++ "_" ++ a) (j.text ++ "_" ++ b) ↔ Alike i.text j.text ∧ Alike a b := by
  have plain (id : AutomatonId) : '_' ∉ id.text.toList.map Char.toLower := by
    intro listed
    obtain ⟨c, member, lowered⟩ := List.mem_map.mp listed
    exact id.underscore_not_mem (toLower_eq_underscore.mp lowered ▸ member)
  have joined (id : AutomatonId) (name : String) :
      (id.text ++ "_" ++ name).toList.map Char.toLower =
        id.text.toList.map Char.toLower ++ '_' :: name.toList.map Char.toLower := by simp
  rw [alike_iff, alike_iff, alike_iff, joined, joined, append_separator_inj (plain i) (plain j)]

end Name

namespace ObjectName

open Name (Alike)

variable {x y : ObjectName} {i j : AutomatonId} {a b : String}

/-- The first letter of all objects of a kind. Activities have no letter of their own. -/
def lead? : ObjectName → Option Char
  | .traceState _ => some 't'
  | .automatonState _ _ | .pooledState _ => some 's'
  | .jointAccept _ => some 'g'
  | .automaton _ => some 'a'
  | .dummyActivity => some 'd'
  | .activity _ => none

theorem head?_of_lead? {c : Char} (lead : x.lead? = some c) :
    (x.render.toList.map Char.toLower).head? = some c := by
  cases x with
  | activity symbol => cases lead
  | _ =>
    cases lead
    simp [render, dummyName]

/-- Objects of most kinds are told apart by their first letters. -/
theorem not_alike_of_lead? {c d : Char} (hx : x.lead? = some c) (hy : y.lead? = some d)
    (apart : c ≠ d) : ¬Alike x.render y.render := by
  intro alike
  have same := head?_of_lead? hx
  rw [Name.alike_iff.mp alike, head?_of_lead? hy] at same
  exact apart (Option.some.inj same).symm

@[simp] theorem alike_traceState :
    Alike (traceState a).render (traceState b).render ↔ Alike a b := Name.alike_append "t"

@[simp] theorem alike_automatonState :
    Alike (automatonState i a).render (automatonState j b).render ↔
      Alike i.text j.text ∧ Alike a b := by
  have tagged (id : AutomatonId) (name : String) :
      (automatonState id name).render = "s_" ++ (id.text ++ "_" ++ name) := by
    simp [render, String.append_assoc]
  rw [tagged, tagged, Name.alike_append, Name.alike_join]

@[simp] theorem alike_jointAccept :
    Alike (jointAccept i).render (jointAccept j).render ↔ Alike i.text j.text :=
  Name.alike_append "gs_"

@[simp] theorem alike_automaton :
    Alike (automaton i).render (automaton j).render ↔ Alike i.text j.text := Name.alike_append "a"

@[simp] theorem alike_pooledState {k l : Nat} :
    Alike (pooledState k).render (pooledState l).render ↔ k = l := by
  rw [render, render, Name.alike_append, Alike, Name.caseless_decimal, Name.caseless_decimal]
  exact ⟨Decimal.render_injective, congrArg _⟩

end ObjectName

end AlignPlan
