import AlignPlan.Format.Cursor

/-! Words and what may stand between them. A text is a list of words with gaps after them; a
reader that skips gaps meets the words one after the other, whatever the gaps are made of. -/
namespace AlignPlan.Format

open Cursor (isLineBreak isSpace skipFrom)

/-- The ways to end a line. -/
inductive LineEnd
  | lineFeed | carriageReturn | both

def LineEnd.text : LineEnd → List Char
  | .lineFeed => ['\n']
  | .carriageReturn => ['\r']
  | .both => ['\r', '\n']

/-- A piece of a gap. A comment takes the rest of its line and the end of the line. -/
inductive Blank
  | space
  | tab
  | lineEnd (stop : LineEnd)
  | comment (text : List Char) (oneLine : ∀ c ∈ text, isLineBreak c = false) (stop : LineEnd)

def Blank.text : Blank → List Char
  | .space => [' ']
  | .tab => ['\t']
  | .lineEnd stop => stop.text
  | .comment text _ stop => '/' :: '/' :: (text ++ stop.text)

abbrev Gap := List Blank

def gapText (gap : Gap) : List Char := gap.flatMap Blank.text

/-- Words, each with the gap after it. -/
def placedText (placed : List (String × Gap)) : List Char :=
  placed.flatMap fun (word, gap) => word.toList ++ gapText gap

/-- The words begin after a gap that may be empty. -/
def spread (lead : Gap) (placed : List (String × Gap)) : String :=
  String.ofList (gapText lead ++ placedText placed)

/-- A text that goes on with these words, each after a gap. -/
inductive Follows : List String → List Char → Prop
  | nothing (gap : Gap) : Follows [] (gapText gap)
  | word (gap : Gap) (apart : gap ≠ []) (word : String) {words : List String} {rest : List Char}
      (more : Follows words rest) : Follows (word :: words) (gapText gap ++ (word.toList ++ rest))

/-- A text that starts with the first of these words and goes on with the others. -/
def Faces : List String → List Char → Prop
  | [], text => text = []
  | word :: words, text => ∃ rest, text = word.toList ++ rest ∧ Follows words rest

/-- Only after the last word may the gap be empty. -/
theorem gaps_of_cons {p : String × Gap} {placed : List (String × Gap)}
    (gaps : ∀ q ∈ (p :: placed).dropLast, q.2 ≠ []) :
    (placed ≠ [] → p.2 ≠ []) ∧ ∀ q ∈ placed.dropLast, q.2 ≠ [] := by
  constructor
  · intro some
    rw [List.dropLast_cons_of_ne_nil some] at gaps
    exact gaps p List.mem_cons_self
  · intro q member
    have some : placed ≠ [] := List.ne_nil_of_mem (List.dropLast_subset _ member)
    rw [List.dropLast_cons_of_ne_nil some] at gaps
    exact gaps q (List.mem_cons_of_mem _ member)

theorem follows_placed {gap : Gap} {placed : List (String × Gap)} (apart : placed ≠ [] → gap ≠ [])
    (gaps : ∀ p ∈ placed.dropLast, p.2 ≠ []) :
    Follows (placed.map Prod.fst) (gapText gap ++ placedText placed) := by
  induction placed generalizing gap with
  | nil =>
    simp only [List.map_nil, placedText, List.flatMap_nil, List.append_nil]
    exact .nothing gap
  | cons p placed ih =>
    obtain ⟨first, others⟩ := gaps_of_cons gaps
    have more : Follows (placed.map Prod.fst) (gapText p.2 ++ placedText placed) := ih first others
    have whole := Follows.word gap (apart (List.cons_ne_nil _ _)) p.1 more
    simpa [placedText] using whole

theorem LineEnd.skipFrom_text (stop : LineEnd) (inComment : Bool) (offset : Nat)
    (rest : List Char) :
    ∃ later, skipFrom inComment offset (stop.text ++ rest) = skipFrom false later rest := by
  cases stop with
  | lineFeed => exact ⟨_, by simp [LineEnd.text, skipFrom, isLineBreak]; rfl⟩
  | carriageReturn => exact ⟨_, by simp [LineEnd.text, skipFrom, isLineBreak]; rfl⟩
  | both => exact ⟨_, by simp [LineEnd.text, skipFrom, isLineBreak]; rfl⟩

theorem skipFrom_comment {text : List Char} (oneLine : ∀ c ∈ text, isLineBreak c = false)
    (offset : Nat) (rest : List Char) :
    ∃ later, skipFrom true offset (text ++ rest) = skipFrom true later rest := by
  induction text generalizing offset with
  | nil => exact ⟨offset, rfl⟩
  | cons c text ih =>
    rw [List.forall_mem_cons] at oneLine
    obtain ⟨later, skipped⟩ := ih oneLine.2 (offset + c.utf8Size)
    refine ⟨later, ?_⟩
    rw [← skipped, List.cons_append]
    conv => lhs; unfold skipFrom
    simp [oneLine.1]

theorem Blank.skipFrom_text (blank : Blank) (offset : Nat) (rest : List Char) :
    ∃ later, skipFrom false offset (blank.text ++ rest) = skipFrom false later rest := by
  cases blank with
  | space => exact ⟨_, by simp [Blank.text, skipFrom, isLineBreak, isSpace]; rfl⟩
  | tab => exact ⟨_, by simp [Blank.text, skipFrom, isLineBreak, isSpace]; rfl⟩
  | lineEnd stop => exact stop.skipFrom_text false offset rest
  | comment text oneLine stop =>
    obtain ⟨later, skipped⟩ := skipFrom_comment oneLine (offset + 2) (stop.text ++ rest)
    obtain ⟨last, ended⟩ := stop.skipFrom_text true later rest
    refine ⟨last, ?_⟩
    rw [← ended, ← skipped]
    simp [Blank.text, skipFrom, isLineBreak, isSpace]

theorem skipFrom_gapText (gap : Gap) (offset : Nat) (rest : List Char) :
    ∃ later, skipFrom false offset (gapText gap ++ rest) = skipFrom false later rest := by
  induction gap generalizing offset with
  | nil => exact ⟨offset, rfl⟩
  | cons blank gap ih =>
    obtain ⟨later, skipped⟩ := blank.skipFrom_text offset (gapText gap ++ rest)
    obtain ⟨last, ended⟩ := ih later
    refine ⟨last, ?_⟩
    rw [← ended, ← skipped]
    simp [gapText]

/-- Whether a character may come right after a word. -/
def isGapChar (c : Char) : Bool := isSpace c || c == '/'

/-- A word that no gap runs into. -/
def isSolid (word : String) : Bool := word.toList.head?.any fun c => !isGapChar c

theorem skipFrom_solid {word : String} (solid : isSolid word = true) (offset : Nat)
    (rest : List Char) :
    skipFrom false offset (word.toList ++ rest) = ⟨offset, word.toList ++ rest⟩ := by
  unfold isSolid isGapChar at solid
  cases first : word.toList with
  | nil => simp [first] at solid
  | cons c cs =>
    simp only [first, List.head?_cons, Option.any_some, Bool.not_eq_true', Bool.or_eq_false_iff,
      beq_eq_false_iff_ne] at solid
    obtain ⟨dense, slash⟩ := solid
    have dense' : isLineBreak c = false := by
      simp only [isSpace, Bool.or_eq_false_iff] at dense
      exact dense.2
    rw [List.cons_append]
    unfold skipFrom
    simp [dense, dense', slash]

/-- The first of some words is one that no gap runs into. -/
def Starts (words : List String) : Prop := ∀ word ∈ words.head?, isSolid word = true

theorem starts_cons {word : String} {words : List String} (solid : isSolid word = true) :
    Starts (word :: words) := by
  intro w head
  cases head
  exact solid

/-- There is a first word, and no gap runs into it. -/
def Begins (words : List String) : Prop := words.head?.any isSolid = true

theorem Starts.begins {words : List String} (starts : Starts words) (some : words ≠ []) :
    Begins words := by
  obtain ⟨word, words, rfl⟩ := List.exists_cons_of_ne_nil some
  exact starts word rfl

theorem Begins.starts {words : List String} (begins : Begins words) (more : List String) :
    Starts (words ++ more) := by
  cases words with
  | nil => cases begins
  | cons word words => exact starts_cons begins

theorem faces_skip {words : List String} {c : Cursor} (starts : Starts words)
    (follows : Follows words c.rest) : Faces words c.skip.rest := by
  obtain ⟨offset, text⟩ := c
  simp only [Cursor.skip] at follows ⊢
  cases follows with
  | nothing gap =>
    obtain ⟨later, skipped⟩ := skipFrom_gapText gap offset []
    rw [List.append_nil] at skipped
    rw [skipped]
    rfl
  | word gap apart word more =>
    rename_i words rest
    obtain ⟨later, skipped⟩ := skipFrom_gapText gap offset (word.toList ++ rest)
    rw [skipped, skipFrom_solid (starts word rfl)]
    exact ⟨rest, rfl, more⟩

theorem skip_of_faces {words : List String} {c : Cursor} (starts : Starts words)
    (faces : Faces words c.rest) : c.skip = c := by
  obtain ⟨offset, text⟩ := c
  cases words with
  | nil =>
    have empty : text = [] := faces
    rw [empty]
    rfl
  | cons word words =>
    obtain ⟨rest, same, _⟩ := faces
    simp only at same
    rw [same]
    exact skipFrom_solid (starts word rfl) offset rest

theorem faces_placed {placed : List (String × Gap)} (gaps : ∀ p ∈ placed.dropLast, p.2 ≠ []) :
    Faces (placed.map Prod.fst) (placedText placed) := by
  cases placed with
  | nil => rfl
  | cons p placed =>
    obtain ⟨first, others⟩ := gaps_of_cons gaps
    exact ⟨gapText p.2 ++ placedText placed, by simp [placedText], follows_placed first others⟩

theorem faces_spread {lead : Gap} {placed : List (String × Gap)}
    (starts : Starts (placed.map Prod.fst)) (gaps : ∀ p ∈ placed.dropLast, p.2 ≠ []) :
    Faces (placed.map Prod.fst) (Cursor.ofString (spread lead placed)).skip.rest := by
  obtain ⟨later, skipped⟩ := skipFrom_gapText lead 0 (placedText placed)
  have faces : Faces (placed.map Prod.fst) (⟨later, placedText placed⟩ : Cursor).rest :=
    faces_placed gaps
  have still := skip_of_faces starts faces
  simp only [Cursor.ofString, Cursor.skip, spread, String.toList_ofList] at still ⊢
  rw [skipped, still]
  exact faces

theorem exists_gapText {gap : Gap} (some : gap ≠ []) :
    ∃ c cs, gapText gap = c :: cs ∧ isGapChar c = true := by
  obtain ⟨blank, gap, rfl⟩ := List.exists_cons_of_ne_nil some
  rw [gapText, List.flatMap_cons]
  cases blank with
  | space => exact ⟨_, _, rfl, rfl⟩
  | tab => exact ⟨_, _, rfl, rfl⟩
  | lineEnd stop => cases stop <;> exact ⟨_, _, rfl, rfl⟩
  | comment => exact ⟨_, _, rfl, rfl⟩

/-- What comes after a word cannot be part of it. -/
theorem isGapChar_of_follows {words : List String} {rest : List Char}
    (follows : Follows words rest) : ∀ c ∈ rest.head?, isGapChar c = true := by
  intro c first
  cases follows with
  | nothing gap =>
    cases gap with
    | nil => cases first
    | cons blank gap =>
      obtain ⟨d, cs, text, dark⟩ := exists_gapText (List.cons_ne_nil blank gap)
      rw [text] at first
      cases first
      exact dark
  | word gap apart word more =>
    obtain ⟨d, cs, text, dark⟩ := exists_gapText apart
    rw [text] at first
    cases first
    exact dark

end AlignPlan.Format
