import AlignPlan.Proofs.Planning.WrittenForm

/-! The lines that a formula is written on. Simple formulas are those that take one line, and a
formula that is set in further has the same lines, each but the first with more spaces before it. -/
namespace AlignPlan.Planning

def IsOneLine (text : String) : Prop := '\n' ∉ text.toList

instance (text : String) : Decidable (IsOneLine text) :=
  inferInstanceAs (Decidable ('\n' ∉ text.toList))

/-- The text with `count` more spaces after every line break. -/
def indented (count : Nat) (text : String) : String :=
  String.ofList (text.toList.flatMap fun c =>
    if c = '\n' then '\n' :: List.replicate count ' ' else [c])

section Texts

variable {a b : String} {count : Nat}

@[simp] theorem isOneLine_append : IsOneLine (a ++ b) ↔ IsOneLine a ∧ IsOneLine b := by
  simp [IsOneLine]

@[simp] theorem not_isOneLine_newline (indent : Nat) : ¬IsOneLine (newline indent) := by
  simp [IsOneLine, newline]

@[simp] theorem indented_append :
    indented count (a ++ b) = indented count a ++ indented count b := by
  simp [indented]

theorem indented_of_isOneLine (oneLine : IsOneLine a) : indented count a = a := by
  have kept : ∀ c ∈ a.toList,
      (if c = '\n' then '\n' :: List.replicate count ' ' else [c]) = [c] := by
    intro c member
    have ordinary : c ≠ '\n' := by
      rintro rfl
      exact oneLine member
    rw [if_neg ordinary]
  rw [indented, List.flatMap_def, List.map_congr_left kept, ← List.flatMap_def]
  simp

theorem isOneLine_spaces (indent : Nat) : IsOneLine (spaces indent) := by
  simp [IsOneLine, spaces, List.mem_replicate]

/-- The spaces that are put in go with those that stand there. -/
@[simp] theorem indented_newline (indent : Nat) :
    indented count (newline indent) = newline (indent + count) := by
  have lineBreak : indented count "\n" = "\n" ++ spaces count := by
    rw [← String.toList_inj]
    simp [indented, spaces]
  have together : spaces count ++ spaces indent = spaces (indent + count) := by
    rw [← String.toList_inj]
    simp [spaces, Nat.add_comm]
  rw [newline, indented_append, lineBreak, indented_of_isOneLine (isOneLine_spaces indent),
    String.append_assoc, together, newline]

theorem isOneLine_decimal (n : Nat) : IsOneLine (Decimal.render n) := by
  intro member
  exact absurd (Decimal.isDigit_of_mem_render member) (by decide)

theorem isOneLine_spaced {texts : List String} (plain : ∀ text ∈ texts, IsOneLine text) :
    IsOneLine (spaced texts) := by
  fun_induction spaced texts with
  | case1 => simp [IsOneLine]
  | case2 text => exact plain text (by simp)
  | case3 text texts _ ih =>
    obtain ⟨first, others⟩ := List.forall_mem_cons.mp plain
    have gap : IsOneLine " " := by decide
    simp [first, gap, ih others]

theorem isOneLine_concat {texts : List String} (plain : ∀ text ∈ texts, IsOneLine text) :
    IsOneLine (concat texts) := by
  induction texts with
  | nil => simp [IsOneLine, concat]
  | cons text texts ih =>
    obtain ⟨first, others⟩ := List.forall_mem_cons.mp plain
    simp [concat, first, ih others]

/-- A bracket around a text, which opens with some words. -/
theorem isOneLine_enclosed {head body : String} (plain : IsOneLine head) :
    IsOneLine (head ++ body ++ ")") ↔ IsOneLine body := by
  have closing : IsOneLine ")" := by decide
  simp [plain, closing]

theorem indented_enclosed {head body : String} (plain : IsOneLine head) :
    indented count (head ++ body ++ ")") = head ++ indented count body ++ ")" := by
  have closing : indented count ")" = ")" := indented_of_isOneLine (by decide)
  simp [indented_of_isOneLine plain, closing]

/-- A bracket around two texts. -/
theorem isOneLine_pair {head first separator second : String} (plain : IsOneLine head) :
    IsOneLine (head ++ first ++ separator ++ second ++ ")") ↔
      IsOneLine first ∧ IsOneLine separator ∧ IsOneLine second := by
  have closing : IsOneLine ")" := by decide
  simp [plain, closing, and_assoc]

theorem indented_pair {head first separator second : String} (plain : IsOneLine head) :
    indented count (head ++ first ++ separator ++ second ++ ")") =
      head ++ indented count first ++ indented count separator ++ indented count second ++ ")" := by
  have closing : indented count ")" = ")" := indented_of_isOneLine (by decide)
  simp [indented_of_isOneLine plain, closing]

end Texts

theorem TypedList.isOneLine_render {l : TypedList} (plain : ∀ label ∈ l.labels, IsOneLine label) :
    IsOneLine l.render := by
  obtain ⟨names, type⟩ := l
  obtain ⟨listed, typed⟩ := List.forall_mem_append.mp plain
  have words := isOneLine_spaced listed
  cases type with
  | none => exact words
  | some type =>
    have dash : IsOneLine " - " := by decide
    have parent : IsOneLine type := typed type (by simp)
    simp [TypedList.render, words, dash, parent]

theorem isOneLine_renderTyped {lists : List TypedList}
    (plain : ∀ label ∈ lists.flatMap TypedList.labels, IsOneLine label) :
    IsOneLine (renderTyped lists) := by
  apply isOneLine_spaced
  intro text member
  obtain ⟨l, listed, rfl⟩ := List.mem_map.mp member
  apply TypedList.isOneLine_render
  intro label named
  exact plain label (List.mem_flatMap.mpr ⟨l, listed, named⟩)

namespace Formula

/-- How a formula is written does not go into its names. -/
theorem isOneLine_atom {predicate : String} {arguments : List String}
    (plain : ∀ label ∈ (atom predicate arguments).labels, IsOneLine label) (indent : Nat) :
    IsOneLine ((atom predicate arguments).render indent) := by
  obtain ⟨known, listed⟩ := List.forall_mem_cons.mp plain
  have words : IsOneLine (concat (arguments.map (" " ++ ·))) := by
    apply isOneLine_concat
    intro text member
    obtain ⟨argument, argued, rfl⟩ := List.mem_map.mp member
    exact isOneLine_append.mpr ⟨by decide, listed argument argued⟩
  have head : IsOneLine ("(" ++ predicate) := isOneLine_append.mpr ⟨by decide, known⟩
  rw [render, isOneLine_enclosed head]
  exact words

/-- A fluent and an amount, behind an operator. -/
theorem isOneLine_numeric {operator fluent : String} (plain : IsOneLine operator)
    (counter : IsOneLine fluent) (amount : Nat) :
    IsOneLine (operator ++ fluent ++ ") " ++ Decimal.render amount ++ ")") :=
  (isOneLine_pair plain).mpr ⟨counter, by decide, isOneLine_decimal amount⟩

mutual

/-- One line is what a simple formula takes, and only a simple one. -/
theorem isOneLine_render (indent : Nat) : (f : Formula) → (∀ label ∈ f.labels, IsOneLine label) →
    (IsOneLine (f.render indent) ↔ f.isSimple = true)
  | .atom _ _, plain => iff_of_true (isOneLine_atom plain indent) (by rw [isSimple])
  | .increase fluent amount, plain => by
    rw [render, isSimple]
    have counter := List.forall_mem_singleton.mp plain
    exact iff_of_true (isOneLine_numeric (by decide) counter amount) rfl
  | .value fluent amount, plain => by
    rw [render, isSimple]
    have counter := List.forall_mem_singleton.mp plain
    exact iff_of_true (isOneLine_numeric (by decide) counter amount) rfl
  | .not body, plain => by
    rw [render, isOneLine_enclosed (by decide), isOneLine_render indent body plain, isSimple]
  | .and conjuncts, plain => by
    rw [render, isSimple]
    split
    next simple =>
      rw [isOneLine_enclosed (by decide), isOneLine_renderEach indent conjuncts plain]
      exact and_iff_right fun _ => by decide
    next broken =>
      rw [isOneLine_enclosed (by decide), isOneLine_renderEach (indent + 2) conjuncts plain]
      exact and_iff_right_of_imp fun simple => absurd simple broken
  | .imply premise conclusion, plain => by
    obtain ⟨first, second⟩ := List.forall_mem_append.mp plain
    rw [render, isSimple]
    split
    next simple =>
      rw [isOneLine_pair (by decide), isOneLine_render indent premise first,
        isOneLine_render indent conclusion second, Bool.and_eq_true]
      exact and_congr_right fun _ => and_iff_right (by decide)
    next broken =>
      rw [isOneLine_pair (by decide)]
      exact iff_of_false (fun oneLine => not_isOneLine_newline _ oneLine.2.1) broken
  | .forall quantified body, plain => by
    have head : IsOneLine ("(forall (" ++ renderTyped quantified) := by
      obtain ⟨bound, _⟩ := List.forall_mem_append.mp plain
      exact isOneLine_append.mpr ⟨by decide, isOneLine_renderTyped bound⟩
    rw [render, isOneLine_pair head, isSimple]
    exact iff_of_false (fun oneLine => not_isOneLine_newline _ oneLine.2.1) Bool.false_ne_true
  | .when condition effect, _ => by
    rw [render, isOneLine_pair (by decide), isSimple]
    exact iff_of_false (fun oneLine => not_isOneLine_newline _ oneLine.2.1) Bool.false_ne_true

theorem isOneLine_renderEach {separator : String} (indent : Nat) : (fs : List Formula) →
    (∀ label ∈ allLabels fs, IsOneLine label) →
    (IsOneLine (renderEach separator indent fs) ↔
      (fs ≠ [] → IsOneLine separator) ∧ allSimple fs = true)
  | [], _ => by simp [renderEach, IsOneLine, allSimple]
  | f :: fs, plain => by
    obtain ⟨first, others⟩ := List.forall_mem_append.mp plain
    rw [renderEach, isOneLine_append, isOneLine_append, isOneLine_render indent f first,
      isOneLine_renderEach indent fs others, allSimple, Bool.and_eq_true]
    constructor
    · rintro ⟨⟨gap, simple⟩, _, rest⟩
      exact ⟨fun _ => gap, simple, rest⟩
    · rintro ⟨led, simple, rest⟩
      have gap := led (List.cons_ne_nil f fs)
      exact ⟨⟨gap, simple⟩, fun _ => gap, rest⟩

end

mutual

theorem indented_render (count indent : Nat) : (f : Formula) →
    (∀ label ∈ f.labels, IsOneLine label) →
    indented count (f.render indent) = f.render (indent + count)
  | .atom _ _, plain => by
    rw [indented_of_isOneLine (isOneLine_atom plain indent), render, render]
  | .increase fluent amount, plain => by
    have oneLine := (isOneLine_render indent (.increase fluent amount) plain).mpr (by rw [isSimple])
    rw [indented_of_isOneLine oneLine, render, render]
  | .value fluent amount, plain => by
    have oneLine := (isOneLine_render indent (.value fluent amount) plain).mpr (by rw [isSimple])
    rw [indented_of_isOneLine oneLine, render, render]
  | .not body, plain => by
    rw [render, indented_enclosed (by decide), indented_render count indent body plain, render]
  | .and conjuncts, plain => by
    rw [render, render]
    split
    next =>
      have gap : indented count " " = " " := indented_of_isOneLine (by decide)
      rw [indented_enclosed (by decide), indented_renderEach count indent conjuncts plain, gap]
    next =>
      rw [indented_enclosed (by decide), indented_renderEach count (indent + 2) conjuncts plain,
        indented_newline, Nat.add_right_comm]
  | .imply premise conclusion, plain => by
    obtain ⟨first, second⟩ := List.forall_mem_append.mp plain
    rw [render, render]
    split
    next =>
      have gap : indented count " " = " " := indented_of_isOneLine (by decide)
      rw [indented_pair (by decide), indented_render count indent premise first,
        indented_render count indent conclusion second, gap]
    next =>
      rw [indented_pair (by decide), indented_render count indent premise first,
        indented_render count (indent + 2) conclusion second, indented_newline,
        Nat.add_right_comm]
  | .forall quantified body, plain => by
    obtain ⟨bound, inside⟩ := List.forall_mem_append.mp plain
    have head : IsOneLine ("(forall (" ++ renderTyped quantified) :=
      isOneLine_append.mpr ⟨by decide, isOneLine_renderTyped bound⟩
    have closing : indented count ")" = ")" := indented_of_isOneLine (by decide)
    rw [render, indented_pair head, indented_render count (indent + 2) body inside,
      indented_newline, closing, render, Nat.add_right_comm]
  | .when condition effect, plain => by
    obtain ⟨first, second⟩ := List.forall_mem_append.mp plain
    rw [render, indented_pair (by decide), indented_render count indent condition first,
      indented_render count (indent + 2) effect second, indented_newline, render,
      Nat.add_right_comm]

theorem indented_renderEach {separator : String} (count indent : Nat) : (fs : List Formula) →
    (∀ label ∈ allLabels fs, IsOneLine label) →
    indented count (renderEach separator indent fs) =
      renderEach (indented count separator) (indent + count) fs
  | [], _ => by rw [renderEach, renderEach, indented_of_isOneLine (by decide)]
  | f :: fs, plain => by
    obtain ⟨first, others⟩ := List.forall_mem_append.mp plain
    rw [renderEach, renderEach, indented_append, indented_append,
      indented_render count indent f first, indented_renderEach count indent fs others]

end

/-- A formula breaks its lines exactly if it is not simple, and where it is set in, all its lines
but the first are. -/
theorem render_layout {f : Formula} (plain : ∀ label ∈ f.labels, IsOneLine label) (indent : Nat) :
    ('\n' ∈ (f.render indent).toList ↔ f.isSimple = false) ∧
      f.render indent = indented indent (f.render 0) := by
  constructor
  · have lines := not_congr (isOneLine_render indent f plain)
    rwa [IsOneLine, Decidable.not_not, Bool.not_eq_true] at lines
  · rw [indented_render indent 0 f plain, Nat.zero_add]

/-- A quantifier in an implication that is denied. Only the conclusion and the body of the
quantifier are set in, by as much, since the denial and the premise stay in their column. -/
theorem render_layout_sample :
    let states : Formula := .forall [.of ["?s"] "state"] (.atom "cur_state" ["?s"])
    let cost : Formula := .and [.atom "final_state" ["?s"], .increase "total-cost" 1]
    let f : Formula := .not (.imply states cost)
    (∀ label ∈ f.labels, IsOneLine label) ∧
    ('\n' ∈ (f.render 4).toList ↔ f.isSimple = false) ∧
    f.render 4 = indented 4 (f.render 0) ∧
    f.render 0 = "(not (imply (forall (?s - state)\n  (cur_state ?s))\n  " ++
      "(and (final_state ?s) (increase (total-cost) 1))))" := by
  intro states cost f
  have plain : ∀ label ∈ f.labels, IsOneLine label := by decide
  obtain ⟨lines, moved⟩ := render_layout plain 4
  exact ⟨plain, lines, moved, by decide +kernel⟩

end Formula

end AlignPlan.Planning
