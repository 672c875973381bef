import AlignPlan.Name

/-! Which texts can be names, said without the defect that is reported of the others. -/
namespace AlignPlan.Name

theorem isNameChar_of_isAlphanum {c : Char} (h : c.isAlphanum = true) : isNameChar c = true := by
  simp [isNameChar, h]

theorem defect?_eq_none {text : String} :
    defect? text = none ↔ text ≠ "" ∧ text.toList.all isNameChar = true := by
  unfold defect?
  split <;> simp_all [List.find?_eq_none]

/-- A text that can name a state falls short of an activity for one of two reasons. -/
theorem activityDefect?_of_defect?_eq_none {text : String} {defect : Defect}
    (plain : defect? text = none) (found : activityDefect? text = some defect) :
    defect = .firstCharacter ∧ text.toList.head?.any Char.isAlpha = false ∨
      defect = .reserved text ∧ isReserved text = true := by
  rw [activityDefect?, plain, Option.none_or] at found
  by_cases letter : text.toList.head?.any Char.isAlpha = true
  · by_cases reserved : isReserved text = true
    · simp [letter, reserved] at found
      exact .inr ⟨found.symm, reserved⟩
    · simp [letter, reserved] at found
  · simp [letter] at found
    exact .inl ⟨found.symm, Bool.eq_false_iff.mpr letter⟩

end AlignPlan.Name
