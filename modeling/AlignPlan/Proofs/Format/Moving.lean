import AlignPlan.Format.Grammar
import AlignPlan.Proofs.Format.Words
import AlignPlan.Report.Source

/-! The same text in another place. What is read off a text knows its places in the file; where
the text stands further on, it is read with its places moved on by as many bytes. Gaps are passed
over alike wherever they stand. -/
namespace AlignPlan.Format

open Cursor (isLineBreak skipFrom)

/-- Values with places in a file that can be moved on by some bytes. -/
class Movable (α : Type) where
  move : Nat → α → α
  move_add : ∀ (m n : Nat) (x : α), move (m + n) x = move m (move n x)

export Movable (move move_add)

section Values

variable {α β : Type} [Movable α] [Movable β]

instance : Movable Unit where
  move _ u := u
  move_add _ _ _ := rfl

instance : Movable String where
  move _ text := text
  move_add _ _ _ := rfl

instance : Movable (List α) where
  move n := List.map (move n)
  move_add m n xs := by
    rw [List.map_map]
    exact List.map_congr_left fun x _ => move_add m n x

instance : Movable (α × β) where
  move n x := (move n x.1, move n x.2)
  move_add m n x := by rw [move_add, move_add]

instance : Movable (Located α) where
  move n x := ⟨move n x.value, n + x.start, n + x.stop⟩
  move_add m n x := by simp only [move_add, Nat.add_assoc]

def Item.move (n : Nat) : Item → Item
  | .states names => .states (Movable.move n names)
  | .alphabet names => .alphabet (Movable.move n names)
  | .init name => .init (Movable.move n name)
  | .accept names => .accept (Movable.move n names)
  | .transition source symbol target =>
    .transition (Movable.move n source) (Movable.move n symbol) (Movable.move n target)

instance : Movable Item where
  move := Item.move
  move_add m n item := by cases item <;> simp only [Item.move, move_add]

instance : Movable Block where
  move n b := ⟨b.kind, move n b.id, move n b.items⟩
  move_add m n b := by rw [move_add, move_add]

@[simp] theorem move_append (n : Nat) (xs ys : List α) :
    move n (xs ++ ys) = move n xs ++ move n ys := List.map_append

@[simp] theorem move_cons (n : Nat) (x : α) (xs : List α) :
    move n (x :: xs) = move n x :: move n xs := rfl

end Values

theorem byteLength_append (a b : List Char) :
    byteLength (a ++ b) = byteLength a + byteLength b := by
  induction a with
  | nil => simp [byteLength]
  | cons c a ih => simp only [List.cons_append, byteLength, ih, Nat.add_assoc]

theorem utf8ByteSize_eq (text : String) : text.utf8ByteSize = byteLength text.toList := by
  have counted : ∀ cs : List Char, (String.ofList cs).utf8ByteSize = byteLength cs := by
    intro cs
    induction cs with
    | nil => rfl
    | cons c cs ih =>
      rw [String.ofList_cons, String.utf8ByteSize_append, ih, byteLength,
        String.utf8ByteSize_singleton]
  rw [← counted text.toList, String.ofList_toList]

/-- The text before a byte offset. -/
def textBefore (offset : Nat) (text : List Char) : List Char :=
  text.take (Report.charsWithin offset text)

/-- The text from a byte offset on. -/
def textFrom (offset : Nat) (text : List Char) : List Char :=
  text.drop (Report.charsWithin offset text)

/-- The text that a value was read from. -/
def Located.textIn {α : Type} (x : Located α) (text : List Char) : List Char :=
  textFrom x.start (textBefore x.stop text)

theorem charsWithin_append (a b : List Char) :
    Report.charsWithin (byteLength a) (a ++ b) = a.length := by
  induction a with
  | nil =>
    cases b with
    | nil => rfl
    | cons c b =>
      have := c.utf8Size_pos
      simp only [byteLength, List.nil_append, Report.charsWithin, List.length_nil]
      rw [if_neg (by omega)]
  | cons c a ih =>
    rw [List.cons_append, byteLength, Report.charsWithin, if_pos (Nat.le_add_right _ _),
      Nat.add_sub_cancel_left, ih, List.length_cons]

theorem textBefore_append (a b : List Char) : textBefore (byteLength a) (a ++ b) = a := by
  rw [textBefore, charsWithin_append, List.take_left]

theorem textFrom_append (a b : List Char) : textFrom (byteLength a) (a ++ b) = b := by
  rw [textFrom, charsWithin_append, List.drop_left]

/-- What stands between two offsets, by what stands before and after it. -/
theorem textIn_append {α : Type} {x : Located α} {before own after : List Char}
    (start : x.start = byteLength before) (stop : x.stop = byteLength before + byteLength own) :
    x.textIn (before ++ own ++ after) = own := by
  rw [Located.textIn, start, stop, ← byteLength_append, textBefore_append, textFrom_append]

namespace Cursor

theorem drop?_append_eq (offset : Nat) (text rest : List Char) :
    (⟨offset, text ++ rest⟩ : Cursor).drop? text = some ⟨offset + byteLength text, rest⟩ := by
  induction text generalizing offset with
  | nil => rfl
  | cons c text ih => simp only [List.cons_append, drop?, if_true, ih, byteLength, Nat.add_assoc]

/-- No byte is lost on the way over a gap. -/
theorem byteLength_skipFrom (inComment : Bool) (offset : Nat) (text : List Char) :
    (skipFrom inComment offset text).offset + byteLength (skipFrom inComment offset text).rest =
      offset + byteLength text := by
  have slash : ('/' : Char).utf8Size = 1 := rfl
  fun_induction skipFrom inComment offset text with
  | case1 => rfl
  | case2 inComment offset c rest ends ih => rw [ih, byteLength, Nat.add_assoc]
  | case3 offset c rest ends ih => rw [ih, byteLength, Nat.add_assoc]
  | case4 inComment offset c rest ends outside space ih => rw [ih, byteLength, Nat.add_assoc]
  | case5 inComment offset outside more ends space ih =>
    simp only [ih, byteLength, slash]
    omega
  | case6 => rfl

section Equations

variable {inComment : Bool} {c : Char}

theorem skipFrom_lineBreak (ends : isLineBreak c = true) (offset : Nat) (rest : List Char) :
    skipFrom inComment offset (c :: rest) = skipFrom false (offset + c.utf8Size) rest := by
  rw [skipFrom.eq_def]
  simp only [ends, if_true]

theorem skipFrom_commented (inside : isLineBreak c = false) (offset : Nat) (rest : List Char) :
    skipFrom true offset (c :: rest) = skipFrom true (offset + c.utf8Size) rest := by
  rw [skipFrom.eq_def]
  simp only [inside, Bool.false_eq_true, if_false, if_true]

theorem skipFrom_space (space : isSpace c = true) (offset : Nat) (rest : List Char) :
    skipFrom false offset (c :: rest) = skipFrom false (offset + c.utf8Size) rest := by
  rw [skipFrom.eq_def]
  cases ends : isLineBreak c <;> simp [space, ends]

theorem skipFrom_slashes (offset : Nat) (rest : List Char) :
    skipFrom false offset ('/' :: '/' :: rest) = skipFrom true (offset + 2) rest := rfl

theorem byteLength_slashes (text : List Char) :
    byteLength ('/' :: '/' :: text) = 2 + byteLength text := by
  simp only [byteLength, show ('/' : Char).utf8Size = 1 from rfl]
  omega

end Equations

/-- A gap that has ended is passed over alike whatever comes next. -/
theorem exists_skipFrom {inComment : Bool} {offset later : Nat} {text rest : List Char} {c : Char}
    (h : skipFrom inComment offset text = ⟨later, c :: rest⟩) :
    ∃ gap, text = gap ++ c :: rest ∧ ∀ offset' rest',
      skipFrom inComment offset' (gap ++ rest') =
        skipFrom false (offset' + byteLength gap) rest' := by
  fun_induction skipFrom inComment offset text with
  | case1 => cases h
  | case2 inComment offset d text ends ih =>
    obtain ⟨gap, rfl, passed⟩ := ih h
    refine ⟨d :: gap, rfl, fun offset' rest' => ?_⟩
    rw [List.cons_append, skipFrom_lineBreak ends, passed, byteLength, Nat.add_assoc]
  | case3 offset d text ends ih =>
    obtain ⟨gap, rfl, passed⟩ := ih h
    refine ⟨d :: gap, rfl, fun offset' rest' => ?_⟩
    rw [List.cons_append, skipFrom_commented (Bool.eq_false_iff.mpr ends), passed, byteLength,
      Nat.add_assoc]
  | case4 inComment offset d text ends outside space ih =>
    obtain ⟨gap, rfl, passed⟩ := ih h
    refine ⟨d :: gap, rfl, fun offset' rest' => ?_⟩
    rw [Bool.eq_false_iff.mpr outside, List.cons_append, skipFrom_space space, passed,
      byteLength, Nat.add_assoc]
  | case5 inComment offset outside more ends space ih =>
    obtain ⟨gap, rfl, passed⟩ := ih h
    refine ⟨'/' :: '/' :: gap, rfl, fun offset' rest' => ?_⟩
    rw [Bool.eq_false_iff.mpr outside, List.cons_append, List.cons_append, skipFrom_slashes, passed,
      byteLength_slashes, Nat.add_assoc]
  | case6 inComment offset d text ends outside space =>
    cases h
    refine ⟨[], rfl, fun offset' rest' => ?_⟩
    rw [Bool.eq_false_iff.mpr outside]
    rfl

end Cursor

/-- A text that is passed over as a whole, whatever comes next. A comment has to end in it. -/
def IsGap (gap : List Char) : Prop :=
  ∀ offset rest, skipFrom false offset (gap ++ rest) = skipFrom false (offset + byteLength gap) rest

theorem isGap_gapText (gap : Gap) : IsGap (gapText gap) := by
  intro offset rest
  obtain ⟨later, skipped⟩ := skipFrom_gapText gap offset rest
  have whole := Cursor.byteLength_skipFrom false offset (gapText gap ++ rest)
  have part := Cursor.byteLength_skipFrom false later rest
  rw [skipped, part, byteLength_append] at whole
  have : later = offset + byteLength (gapText gap) := by omega
  rw [skipped, this]

theorem IsGap.skip_eq {gap : List Char} (h : IsGap gap) (offset : Nat) (rest : List Char) :
    (⟨offset, gap ++ rest⟩ : Cursor).skip = (⟨offset + byteLength gap, rest⟩ : Cursor).skip :=
  h offset rest

/-- A text that begins with no gap. -/
def Solid (text : List Char) : Prop := text.head?.any (fun c => !isGapChar c) = true

theorem Solid.append {text : List Char} (solid : Solid text) (rest : List Char) :
    Solid (text ++ rest) := by
  cases text with
  | nil => cases solid
  | cons c text => exact solid

theorem Solid.ne_nil {text : List Char} (solid : Solid text) : text ≠ [] := by
  rintro rfl
  cases solid

namespace Cursor

theorem skip_solid {text : List Char} (solid : Solid text) (offset : Nat) (rest : List Char) :
    (⟨offset, text ++ rest⟩ : Cursor).skip = ⟨offset, text ++ rest⟩ := by
  have word : isSolid (String.ofList text) = true := by rwa [isSolid, String.toList_ofList]
  have still := skipFrom_solid word offset rest
  rwa [String.toList_ofList] at still

theorem skip_gap {gap text : List Char} (isGap : IsGap gap) (solid : Solid text) (offset : Nat)
    (rest : List Char) : (⟨offset, gap ++ (text ++ rest)⟩ : Cursor).skip =
      ⟨offset + byteLength gap, text ++ rest⟩ :=
  (isGap.skip_eq offset _).trans (skip_solid solid _ _)

/-- Before a character that is no part of a gap stands a gap. -/
theorem exists_gap {c : Cursor} (more : c.skip.rest ≠ []) : ∃ gap, IsGap gap ∧
    c.rest = gap ++ c.skip.rest ∧ c.skip.offset = c.offset + byteLength gap := by
  obtain ⟨d, rest, found⟩ := List.exists_cons_of_ne_nil more
  have stopped : skipFrom false c.offset c.rest = ⟨c.skip.offset, d :: rest⟩ := by
    rw [← found]
    rfl
  obtain ⟨gap, whole, passed⟩ := exists_skipFrom stopped
  have bytes := byteLength_skipFrom false c.offset c.rest
  rw [stopped, whole, byteLength_append] at bytes
  refine ⟨gap, passed, by rw [found, whole], ?_⟩
  simp only at bytes
  omega

theorem gap_eq_nil {c : Cursor} {gap : List Char} (still : c.skip = c)
    (passed : c.skip.offset = c.offset + byteLength gap) : gap = [] := by
  rw [still] at passed
  cases gap with
  | nil => rfl
  | cons d gap =>
    have := d.utf8Size_pos
    simp only [byteLength] at passed
    omega

theorem skip_skipFrom (inComment : Bool) (offset : Nat) (text : List Char) :
    (skipFrom inComment offset text).skip = skipFrom inComment offset text := by
  fun_induction skipFrom inComment offset text with
  | case1 => rfl
  | case2 _ _ _ _ _ ih => exact ih
  | case3 _ _ _ _ ih => exact ih
  | case4 _ _ _ _ _ _ _ ih => exact ih
  | case5 _ _ _ _ _ _ ih => exact ih
  | case6 inComment offset c rest ends outside space slashes =>
    rw [skip, skipFrom.eq_def]
    simp only [ends, space, if_false, Bool.false_eq_true]

/-- How much of a text is passed over does not depend on where it stands. -/
theorem rest_skipFrom (inComment : Bool) (offset offset' : Nat) (text : List Char) :
    (skipFrom inComment offset' text).rest = (skipFrom inComment offset text).rest := by
  fun_induction skipFrom inComment offset text generalizing offset' with
  | case1 => rfl
  | case2 inComment offset d text ends ih => rw [skipFrom_lineBreak ends, ih]
  | case3 offset d text ends ih => rw [skipFrom_commented (Bool.eq_false_iff.mpr ends), ih]
  | case4 inComment offset d text ends outside space ih =>
    rw [Bool.eq_false_iff.mpr outside, skipFrom_space space, ih]
  | case5 inComment offset outside more ends space ih =>
    rw [Bool.eq_false_iff.mpr outside, skipFrom_slashes, ih]
  | case6 inComment offset c rest ends outside space slashes =>
    rw [skipFrom.eq_def]
    simp only [ends, outside, space, if_false, Bool.false_eq_true]

/-- Where nothing is left, what follows in the next line is all that is read, also where the text
ends in a comment. -/
theorem skipFrom_exhausted {inComment : Bool} {offset : Nat} {text : List Char}
    (h : (skipFrom inComment offset text).rest = []) (offset' : Nat) (rest : List Char) :
    skipFrom inComment offset' (text ++ '\n' :: rest) =
      skipFrom false (offset' + byteLength text + 1) rest := by
  fun_induction skipFrom inComment offset text generalizing offset' with
  | case1 => exact skipFrom_lineBreak rfl offset' rest
  | case2 inComment offset d text ends ih =>
    rw [List.cons_append, skipFrom_lineBreak ends, ih h, byteLength, Nat.add_assoc offset']
  | case3 offset d text ends ih =>
    rw [List.cons_append, skipFrom_commented (Bool.eq_false_iff.mpr ends), ih h, byteLength,
      Nat.add_assoc offset']
  | case4 inComment offset d text ends outside space ih =>
    rw [Bool.eq_false_iff.mpr outside, List.cons_append, skipFrom_space space, ih h, byteLength,
      Nat.add_assoc offset']
  | case5 inComment offset outside more ends space ih =>
    rw [Bool.eq_false_iff.mpr outside, List.cons_append, List.cons_append, skipFrom_slashes, ih h,
      byteLength_slashes, Nat.add_assoc offset']
  | case6 => cases h

theorem skip_skip (c : Cursor) : c.skip.skip = c.skip := skip_skipFrom false c.offset c.rest

end Cursor

end AlignPlan.Format
