/-! Decimal numerals: the written form of a number, and the reading of a numeral as a 64-bit
word. Leading zeros are read but never written. -/
namespace AlignPlan.Decimal

def render (n : Nat) : String := String.ofList (Nat.toDigits 10 n)

def isNumeral (digits : List Char) : Bool := !digits.isEmpty && digits.all Char.isDigit

def value (digits : List Char) : Nat := Nat.ofDigitChars 10 digits 0

/-- Only a non-empty run of ASCII digits below 2 to the 64th is a word. -/
def word64? (text : String) : Option Nat :=
  let digits := text.toList
  if isNumeral digits && value digits < UInt64.size then some (value digits) else none

theorem value_render (n : Nat) : value (render n).toList = n := by
  simp [value, render, Nat.ofDigitChars_toDigits]

theorem toList_render_ne_nil (n : Nat) : (render n).toList ≠ [] := by
  simp [render, Nat.toDigits_ne_nil]

theorem isDigit_of_mem_render {n : Nat} {c : Char} (member : c ∈ (render n).toList) :
    c.isDigit = true := by
  rw [render, String.toList_ofList] at member
  exact Nat.isDigit_of_mem_toDigits (by decide) (by decide) member

theorem isNumeral_render (n : Nat) : isNumeral (render n).toList = true := by
  rw [isNumeral, Bool.and_eq_true, List.all_eq_true, Bool.not_eq_true', List.isEmpty_eq_false_iff]
  exact ⟨toList_render_ne_nil n, fun _ => isDigit_of_mem_render⟩

/-- Writing and reading back loses nothing within the word size. -/
theorem word64?_render (n : Nat) (fits : n < UInt64.size) : word64? (render n) = some n := by
  simp only [word64?, isNumeral_render, value_render, fits, Bool.true_and, decide_true, if_true]

theorem render_injective {m n : Nat} (h : render m = render n) : m = n := by
  rw [← value_render m, h, value_render]

end AlignPlan.Decimal
