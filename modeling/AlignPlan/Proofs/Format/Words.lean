import AlignPlan.Format.Grammar
import AlignPlan.Proofs.Format.Reading
import AlignPlan.Proofs.Validation.Names

/-! How the smallest parts of a file are read: its fixed words, its numerals and its names. A word
of the grammar may begin a name, so what is left of such a name is looked at as well. -/
namespace AlignPlan

/-- A name that can be written down. Two dashes in a row would end it. -/
def Name.Writable (text : String) : Prop := defect? text = none ∧ ¬['-', '-'] <:+: text.toList

instance (text : String) : Decidable (Name.Writable text) :=
  inferInstanceAs (Decidable (_ ∧ _))

namespace Format

namespace Cursor

theorem drop?_append (offset : Nat) (text rest : List Char) :
    ∃ later, (⟨offset, text ++ rest⟩ : Cursor).drop? text = some ⟨later, rest⟩ := by
  induction text generalizing offset with
  | nil => exact ⟨offset, rfl⟩
  | cons c text ih =>
    obtain ⟨later, dropped⟩ := ih (offset + c.utf8Size)
    exact ⟨later, by simpa [drop?] using dropped⟩

theorem rest_of_drop? {text : List Char} {c c' : Cursor} (h : c.drop? text = some c') :
    c.rest = text ++ c'.rest := by
  fun_induction drop? text c with
  | case1 c => cases h; rfl
  | case2 => cases h
  | case3 ls offset d rest ih =>
    have same : rest = ls ++ c'.rest := ih h
    simp [same]
  | case4 => cases h

end Cursor

theorem not_isNameChar_of_isGapChar {c : Char} (gap : isGapChar c = true) :
    Name.isNameChar c = false := by
  simp only [isGapChar, Cursor.isSpace, Cursor.isLineBreak, Bool.or_eq_true, beq_iff_eq] at gap
  rcases gap with ((rfl | rfl) | rfl | rfl) | rfl <;> rfl

theorem continuesName_dash {after : List Char} (opens : ∀ c ∈ after.head?, c ≠ '-' ∧ c ≠ '>') :
    continuesName '-' after = true := by
  cases after with
  | nil => rfl
  | cons d after =>
    obtain ⟨dash, arrow⟩ := opens d rfl
    simp [continuesName, dash, arrow]

theorem splitWhile_append_of_all {continues : Char → List Char → Bool} {text rest : List Char}
    (goesOn : ∀ c after, c :: after <:+ text → continues c (after ++ rest) = true)
    (ends : ∀ c after, rest = c :: after → continues c after = false) :
    splitWhile continues (text ++ rest) = (text, rest) := by
  induction text with
  | nil =>
    cases rest with
    | nil => rfl
    | cons c after => simp [splitWhile, ends c after rfl]
  | cons c text ih =>
    have first := goesOn c text List.suffix_rfl
    have others := ih fun d after suffix => goesOn d after (suffix.trans (List.suffix_cons c text))
    simp [splitWhile, first, others]

namespace Grammar

open Phrase

theorem word_takes {symbol : Symbol} {continues : Char → List Char → Bool} {text : String}
    (nonempty : text ≠ "") (cut : ∀ rest, (∀ c ∈ rest.head?, isGapChar c = true) →
      splitWhile continues (text.toList ++ rest) = (text.toList, rest)) :
    (word symbol continues).Takes [text] fun token => token.value = text := by
  intro c more faces
  obtain ⟨rest, same, follows⟩ := faces
  have split := cut rest (isGapChar_of_follows follows)
  let stop := c.offset + byteLength text.toList
  refine ⟨⟨text, c.offset, stop⟩, ⟨stop, rest⟩, ?_, rfl, follows⟩
  change readWord continues c = _
  simp [readWord, same, split, nonempty, stop]

/-- No word is read where not even its first character could be one of a word. -/
theorem word_refuses {symbol : Symbol} {continues : Char → List Char → Bool} {text : String}
    {more : List String} {first : Char} {others : List Char} (start : text.toList = first :: others)
    (stops : ∀ rest, continues first (others ++ rest) = false) :
    (word symbol continues).Refuses (text :: more) := by
  intro c faces
  obtain ⟨rest, same, _⟩ := faces
  change readWord continues c = none
  simp [readWord, same, start, splitWhile, stops]

/-- Of a class of characters that gaps have none of. -/
theorem class_takes {symbol : Symbol} {class' : Char → Bool} {text : String} (nonempty : text ≠ "")
    (all : text.toList.all class' = true) (apart : ∀ c, isGapChar c = true → class' c = false) :
    (word symbol fun c _ => class' c).Takes [text] fun token => token.value = text := by
  apply word_takes nonempty
  intro rest gap
  apply splitWhile_append_of_all
  · intro c after suffix
    exact List.all_eq_true.mp all c (suffix.subset List.mem_cons_self)
  · intro c after same
    exact apart c (gap c (by rw [same]; rfl))

/-- A name is read as a whole unless what comes next would go on with it or, after a dash, would
make the dash open a delimiter. -/
theorem splitWhile_name {text : String} {rest : List Char} (writable : Name.Writable text)
    (ends : ∀ c after, rest = c :: after → continuesName c after = false)
    (dashed : text.toList.getLast? = some '-' → ∀ c ∈ rest.head?, c ≠ '-' ∧ c ≠ '>') :
    splitWhile continuesName (text.toList ++ rest) = (text.toList, rest) := by
  obtain ⟨plain, dashes⟩ := writable
  have all := List.all_eq_true.mp (Name.defect?_eq_none.mp plain).2
  refine splitWhile_append_of_all (fun c after suffix => ?_) ends
  have legible := all c (suffix.subset List.mem_cons_self)
  simp only [Name.isNameChar, Bool.or_eq_true, beq_iff_eq] at legible
  rcases legible with word | rfl
  · simp only [continuesName, isWordChar, Bool.or_eq_true, beq_iff_eq]
    exact .inl word
  · apply continuesName_dash
    intro d next
    obtain ⟨front, whole⟩ := suffix
    cases after with
    | nil => exact dashed (by rw [← whole]; simp) d next
    | cons e after =>
      cases next
      constructor
      · rintro rfl
        exact dashes ⟨front, after, by rw [← whole]; simp⟩
      · rintro rfl
        have := all '>' (by rw [← whole]; simp)
        contradiction

theorem name_takes {text : String} (writable : Name.Writable text) :
    name.Takes [text] fun token => token.value = text := by
  apply word_takes (Name.defect?_eq_none.mp writable.1).1
  intro rest gap
  apply splitWhile_name writable
  · intro c after same
    have outside := not_isNameChar_of_isGapChar (gap c (by rw [same]; rfl))
    simp only [Name.isNameChar, Bool.or_eq_false_iff] at outside
    simp [continuesName, isWordChar, outside]
  · intro _ c next
    have dark := gap c next
    constructor <;> rintro rfl <;> contradiction

theorem literal_takes (text : String) : (literal text).Takes [text] fun _ => True := by
  intro c more faces
  obtain ⟨rest, same, follows⟩ := faces
  obtain ⟨offset, all⟩ := c
  obtain ⟨later, dropped⟩ := Cursor.drop?_append offset text.toList rest
  refine ⟨(), ⟨later, rest⟩, ?_, trivial, follows⟩
  simp only at same
  simp only [literal, same, dropped, Option.map_some]

theorem keyword_takes (symbol : Symbol) (text : String) :
    (keyword symbol text).Takes [text] fun _ => True := by
  intro c more faces
  obtain ⟨rest, same, follows⟩ := faces
  obtain ⟨offset, all⟩ := c
  obtain ⟨later, dropped⟩ := Cursor.drop?_append offset text.toList rest
  refine ⟨(), ⟨later, rest⟩, ?_, trivial, follows⟩
  simp only at same
  change readKeyword text ⟨offset, all⟩ = _
  have boundary : rest.head?.any isWordChar = false := by
    cases next : rest.head? with
    | none => rfl
    | some d =>
      have outside := not_isNameChar_of_isGapChar (isGapChar_of_follows follows d next)
      simp only [Name.isNameChar, Bool.or_eq_false_iff] at outside
      simp [isWordChar, outside]
  simp [readKeyword, same, dropped, boundary]

/-- Whether neither of two texts begins with the other. -/
def apart (a b : String) : Bool := !a.toList.isPrefixOf b.toList && !b.toList.isPrefixOf a.toList

theorem drop?_eq_none_of_apart {text word : String} (h : apart text word = true) (c : Cursor)
    (rest : List Char) (same : c.rest = word.toList ++ rest) : c.drop? text.toList = none := by
  cases dropped : c.drop? text.toList with
  | none => rfl
  | some c' =>
    have whole := Cursor.rest_of_drop? dropped
    have either := List.prefix_or_prefix_of_prefix (List.prefix_append text.toList c'.rest)
      (whole ▸ same ▸ List.prefix_append word.toList rest)
    simp only [apart, Bool.and_eq_true, Bool.not_eq_true', ← Bool.not_eq_true,
      List.isPrefixOf_iff_prefix] at h
    rcases either with before | before
    · exact absurd before h.1
    · exact absurd before h.2

theorem literal_refuses {text word : String} {more : List String} (h : apart text word = true) :
    (literal text).Refuses (word :: more) := by
  intro c faces
  obtain ⟨rest, same, _⟩ := faces
  simp only [literal, drop?_eq_none_of_apart h c rest same, Option.map_none]

theorem keyword_refuses {symbol : Symbol} {text word : String} {more : List String}
    (h : apart text word = true) : (keyword symbol text).Refuses (word :: more) := by
  intro c faces
  obtain ⟨rest, same, _⟩ := faces
  change readKeyword text c = none
  simp only [readKeyword, drop?_eq_none_of_apart h c rest same]

theorem isSolid_of_legible {text : String} (legible : Name.defect? text = none) :
    isSolid text = true := by
  obtain ⟨nonempty, all⟩ := Name.defect?_eq_none.mp legible
  unfold isSolid
  cases first : text.toList with
  | nil => exact absurd (String.toList_eq_nil_iff.mp first) nonempty
  | cons c cs =>
    have legible := List.all_eq_true.mp all c (by simp [first])
    cases dark : isGapChar c with
    | false => simp [dark]
    | true => simp [not_isNameChar_of_isGapChar dark] at legible

theorem writable_of_suffix {text : String} {cut : List Char} (writable : Name.Writable text)
    (some : cut ≠ []) (suffix : cut <:+ text.toList) : Name.Writable (String.ofList cut) := by
  obtain ⟨_, all⟩ := Name.defect?_eq_none.mp writable.1
  rw [List.all_eq_true] at all
  constructor
  · refine Name.defect?_eq_none.mpr ⟨by simpa using some, List.all_eq_true.mpr ?_⟩
    intro c member
    exact all c (suffix.subset (by simpa using member))
  · rw [String.toList_ofList]
    exact fun dashes => writable.2 (dashes.trans suffix.isInfix)

/-- Where a word of the grammar is read off a name, it is the whole name or the rest of it is a
name as well, which then starts with a dash. -/
theorem rest_of_keyword {symbol : Symbol} {word text : String} {stop : List String} {c c' : Cursor}
    (letters : word.toList.all isWordChar = true) (writable : Name.Writable text)
    (starts : Starts stop) (faces : Faces (text :: stop) c.rest)
    (read : (keyword symbol word).read c = some ((), c')) :
    Faces stop c'.skip.rest ∨
      ∃ rest, Name.Writable rest ∧ Faces (rest :: stop) c'.skip.rest := by
  obtain ⟨rest, same, follows⟩ := faces
  change readKeyword word c = _ at read
  unfold readKeyword at read
  split at read
  next => cases read
  next after dropped =>
    split at read
    next => cases read
    next boundary =>
      cases read
      have whole := Cursor.rest_of_drop? dropped
      rw [same, List.append_eq_append_iff] at whole
      rcases whole with ⟨cut, long, short⟩ | ⟨cut, long, short⟩
      · cases cut with
        | nil =>
          have ended : Follows stop c'.rest := by simpa [short] using follows
          exact .inl (faces_skip starts ended)
        | cons d cut =>
          have dark := isGapChar_of_follows follows d (by rw [short]; rfl)
          have letter := List.all_eq_true.mp letters d (by simp [long])
          have outside := not_isNameChar_of_isGapChar dark
          simp_all [Name.isNameChar, isWordChar]
      · cases cut with
        | nil =>
          have ended : Follows stop c'.rest := by
            rw [short]
            exact follows
          exact .inl (faces_skip starts ended)
        | cons d cut =>
          have remains := writable_of_suffix writable (List.cons_ne_nil d cut) ⟨_, long.symm⟩
          have faces : Faces (String.ofList (d :: cut) :: stop) c'.rest :=
            ⟨rest, by rw [short, String.toList_ofList], follows⟩
          refine .inr ⟨String.ofList (d :: cut), remains, ?_⟩
          rw [skip_of_faces (starts_cons (isSolid_of_legible remains.1)) faces]
          exact faces

end Grammar

end Format

end AlignPlan
