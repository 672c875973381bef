import AlignPlan.Proofs.Planning.WrittenForm

/-! Typed lists read back from their text. Names gather until a dash and a type close their group,
and names that are left at the end have no type. Nothing marks the end of a group without a type,
so names may run together with those of the next group. The lists that are read back as they were
written are those in which only the last group has no type. -/
namespace AlignPlan.Planning

/-! ### Words -/

/-- The longest runs of characters other than white space. -/
def splitAtBlanks (text : String) : List String :=
  ((text.toList.splitOnP Text.isBlank).filter fun run => !run.isEmpty).map String.ofList

/-- Non-empty and without white space. Brackets may occur. -/
def isSolid (text : String) : Bool :=
  !text.toList.isEmpty && text.toList.all fun c => !Text.isBlank c

theorem splitAtBlanks_of_isSolid {word : String} (solid : isSolid word = true) :
    splitAtBlanks word = [word] := by
  simp only [isSolid, Bool.and_eq_true, Bool.not_eq_true', List.all_eq_true] at solid
  rw [splitAtBlanks, List.splitOnP_eq_singleton solid.2]
  simp [solid.1]

theorem flatMap_splitAtBlanks {words : List String} (solid : ∀ w ∈ words, isSolid w = true) :
    words.flatMap splitAtBlanks = words := by
  induction words with
  | nil => rfl
  | cons w words ih =>
    obtain ⟨first, others⟩ := List.forall_mem_cons.mp solid
    rw [List.flatMap_cons, splitAtBlanks_of_isSolid first, ih others, List.singleton_append]

theorem splitAtBlanks_append_space (a b : String) :
    splitAtBlanks (a ++ " " ++ b) = splitAtBlanks a ++ splitAtBlanks b := by
  have cut : (a.toList ++ ' ' :: b.toList).splitOnP Text.isBlank =
      a.toList.splitOnP Text.isBlank ++ b.toList.splitOnP Text.isBlank :=
    List.splitOnP_append_cons a.toList b.toList rfl
  have same : (a ++ " " ++ b).toList = a.toList ++ ' ' :: b.toList := by simp
  simp only [splitAtBlanks, same, cut, List.filter_append, List.map_append]

theorem splitAtBlanks_spaced (texts : List String) :
    splitAtBlanks (spaced texts) = texts.flatMap splitAtBlanks :=
  flatMap_eq_of_spaced rfl splitAtBlanks_append_space texts

/-- Cutting a list loses the elements that it is cut at. -/
theorem flatten_splitOnP {α : Type} {p : α → Bool} (xs : List α) :
    (xs.splitOnP p).flatten = xs.filter fun x => !p x := by
  induction xs with
  | nil => rfl
  | cons x xs ih =>
    obtain ⟨run, runs, same⟩ := List.exists_cons_of_ne_nil (List.splitOnP_ne_nil p xs)
    rw [List.splitOnP_cons_eq_if_modifyHead]
    cases cut : p x with
    | true => simp [cut, ih]
    | false => simp [cut, same, ← ih]

theorem isSolid_of_mem_splitAtBlanks {text word : String} (member : word ∈ splitAtBlanks text) :
    isSolid word = true := by
  obtain ⟨run, among, rfl⟩ := List.mem_map.mp member
  obtain ⟨piece, kept⟩ := List.mem_filter.mp among
  have nonempty : run ≠ [] := by simpa using kept
  have plain : ∀ c ∈ run, Text.isBlank c = false := by
    intro c inside
    have left := List.mem_flatten_of_mem piece inside
    rw [flatten_splitOnP] at left
    simpa using (List.mem_filter.mp left).2
  simpa [isSolid, nonempty] using plain

/-! ### Groups -/

/-- The groups that words make up after names that have gathered. A dash needs a name before it
and a type after it, which is no other dash. -/
def groups? : List String → List String → Option (List TypedList)
  | gathered, [] => some (if gathered.isEmpty then [] else [.untyped gathered])
  | _, ["-"] => none
  | gathered, "-" :: type :: rest =>
    if gathered.isEmpty || type == "-" then none
    else (groups? [] rest).map (.of gathered type :: ·)
  | gathered, name :: rest => groups? (gathered ++ [name]) rest

def readTyped? (text : String) : Option (List TypedList) := groups? [] (splitAtBlanks text)

/-- What may be a name or a type in a list. The dash has a meaning of its own. -/
def isListable (text : String) : Bool := isSolid text && text != "-"

theorem isListable_iff {text : String} :
    isListable text = true ↔ isSolid text = true ∧ text ≠ "-" := by
  simp [isListable]

/-- Lists that stay apart when they are written in a row. Only the last one may be without a
type. -/
structure Separable (lists : List TypedList) : Prop where
  named : ∀ l ∈ lists, l.names ≠ []
  listable : ∀ l ∈ lists, ∀ label ∈ l.labels, isListable label = true
  typed : ∀ l ∈ lists.dropLast, l.type ≠ none

instance (lists : List TypedList) : Decidable (Separable lists) :=
  decidable_of_iff ((∀ l ∈ lists, l.names ≠ []) ∧
      (∀ l ∈ lists, ∀ label ∈ l.labels, isListable label = true) ∧
      ∀ l ∈ lists.dropLast, l.type ≠ none)
    ⟨fun ⟨named, listable, typed⟩ => ⟨named, listable, typed⟩,
      fun ⟨named, listable, typed⟩ => ⟨named, listable, typed⟩⟩

theorem separable_nil : Separable [] := ⟨by simp, by simp, by simp⟩

theorem separable_cons {l : TypedList} {lists : List TypedList} :
    Separable (l :: lists) ↔ l.names ≠ [] ∧ (∀ label ∈ l.labels, isListable label = true) ∧
      (lists ≠ [] → l.type ≠ none) ∧ Separable lists := by
  constructor
  · rintro ⟨named, listable, typed⟩
    obtain ⟨nonempty, others⟩ := List.forall_mem_cons.mp named
    obtain ⟨first, later⟩ := List.forall_mem_cons.mp listable
    cases lists with
    | nil => exact ⟨nonempty, first, absurd rfl, separable_nil⟩
    | cons next lists =>
      rw [List.dropLast_cons_cons, List.forall_mem_cons] at typed
      exact ⟨nonempty, first, fun _ => typed.1, others, later, typed.2⟩
  · rintro ⟨nonempty, first, closed, others⟩
    refine ⟨List.forall_mem_cons.mpr ⟨nonempty, others.named⟩,
      List.forall_mem_cons.mpr ⟨first, others.listable⟩, ?_⟩
    cases lists with
    | nil => simp
    | cons next lists =>
      rw [List.dropLast_cons_cons, List.forall_mem_cons]
      exact ⟨closed (List.cons_ne_nil _ _), others.typed⟩

/-! ### Writing and reading -/

/-- The words of a list. -/
def TypedList.entries (l : TypedList) : List String :=
  l.names ++ l.type.toList.flatMap fun type => ["-", type]

theorem TypedList.splitAtBlanks_render {l : TypedList}
    (solid : ∀ label ∈ l.labels, isSolid label = true) : splitAtBlanks l.render = l.entries := by
  obtain ⟨names, type⟩ := l
  obtain ⟨listed, typed⟩ := List.forall_mem_append.mp solid
  have read : splitAtBlanks (spaced names) = names := by
    rw [splitAtBlanks_spaced, flatMap_splitAtBlanks listed]
  cases type with
  | none => simpa [render, entries] using read
  | some type =>
    have dash : splitAtBlanks "-" = ["-"] := splitAtBlanks_of_isSolid (by decide)
    have parent : splitAtBlanks type = [type] := splitAtBlanks_of_isSolid (typed type (by simp))
    have parts : spaced names ++ " - " ++ type = spaced names ++ " " ++ "-" ++ " " ++ type := by
      simp [← String.toList_inj]
    change splitAtBlanks (spaced names ++ " - " ++ type) = names ++ ["-", type]
    rw [parts, splitAtBlanks_append_space, splitAtBlanks_append_space, read, dash, parent,
      List.append_assoc, List.singleton_append]

theorem splitAtBlanks_renderTyped {lists : List TypedList}
    (solid : ∀ l ∈ lists, ∀ label ∈ l.labels, isSolid label = true) :
    splitAtBlanks (renderTyped lists) = lists.flatMap TypedList.entries := by
  have each : lists.map (splitAtBlanks ∘ TypedList.render) = lists.map TypedList.entries :=
    List.map_congr_left fun l listed => TypedList.splitAtBlanks_render (solid l listed)
  rw [renderTyped, splitAtBlanks_spaced, List.flatMap_def, List.map_map, each, List.flatMap_def]

theorem groups?_names {names : List String} (plain : ∀ name ∈ names, name ≠ "-")
    (gathered rest : List String) :
    groups? gathered (names ++ rest) = groups? (gathered ++ names) rest := by
  induction names generalizing gathered with
  | nil => simp
  | cons name names ih =>
    obtain ⟨first, others⟩ := List.forall_mem_cons.mp plain
    have step : groups? gathered (name :: (names ++ rest)) =
        groups? (gathered ++ [name]) (names ++ rest) := by
      rw [groups?]
      · exact fun dash => absurd dash first
      · exact fun _ _ dash => absurd dash first
    rw [List.cons_append, step, ih others, List.append_assoc, List.singleton_append]

theorem groups?_entries {lists : List TypedList} (apart : Separable lists) :
    groups? [] (lists.flatMap TypedList.entries) = some lists := by
  induction lists with
  | nil => rfl
  | cons l lists ih =>
    obtain ⟨named, listable, closed, others⟩ := separable_cons.mp apart
    obtain ⟨names, type⟩ := l
    have words : ∀ label ∈ names ++ type.toList, label ≠ "-" :=
      fun label member => (isListable_iff.mp (listable label member)).2
    obtain ⟨plain, parent⟩ := List.forall_mem_append.mp words
    have nonempty : names.isEmpty = false := by simpa using named
    rw [List.flatMap_cons, TypedList.entries, List.append_assoc, groups?_names plain,
      List.nil_append]
    cases type with
    -- Where no dash follows the names, no list may follow them either.
    | none =>
      obtain rfl : lists = [] := by simpa using closed
      simp [groups?, nonempty, TypedList.untyped]
    | some type =>
      have other : type ≠ "-" := parent type (by simp)
      simp [groups?, nonempty, other, ih others, TypedList.of]

/-- What is read are lists that stay apart, if nothing but names has gathered before. -/
theorem separable_of_groups? {gathered words : List String} {lists : List TypedList}
    (names : ∀ name ∈ gathered, isListable name = true) (solid : ∀ w ∈ words, isSolid w = true)
    (read : groups? gathered words = some lists) : Separable lists := by
  fun_induction groups? gathered words generalizing lists with
  | case1 gathered =>
    obtain rfl := Option.some.inj read
    split
    next => exact separable_nil
    next some =>
      have nonempty : gathered ≠ [] := by simpa using some
      have labels : ∀ label ∈ (TypedList.untyped gathered).labels, isListable label = true :=
        List.forall_mem_append.mpr ⟨names, by simp [TypedList.untyped]⟩
      exact separable_cons.mpr ⟨nonempty, labels, absurd rfl, separable_nil⟩
  | case2 => contradiction
  | case3 => contradiction
  | case4 gathered type rest known ih =>
    obtain ⟨others, later, rfl⟩ := Option.map_eq_some_iff.mp read
    obtain ⟨nonempty, other⟩ : gathered ≠ [] ∧ type ≠ "-" := by simpa using known
    obtain ⟨_, parent, further⟩ : _ ∧ isSolid type = true ∧ ∀ w ∈ rest, isSolid w = true := by
      simpa using solid
    have closing : isListable type = true := isListable_iff.mpr ⟨parent, other⟩
    have labels : ∀ label ∈ (TypedList.of gathered type).labels, isListable label = true :=
      List.forall_mem_append.mpr ⟨names, by simpa [TypedList.of] using closing⟩
    have apart : Separable others := ih (by simp) further later
    exact separable_cons.mpr ⟨nonempty, labels, fun _ => by simp [TypedList.of], apart⟩
  | case5 gathered name rest alone before ih =>
    have plain : name ≠ "-" := by
      rintro rfl
      cases rest with
      | nil => exact alone rfl rfl
      | cons type rest => exact before type rest rfl rfl
    obtain ⟨first, others⟩ := List.forall_mem_cons.mp solid
    have listable : isListable name = true := isListable_iff.mpr ⟨first, plain⟩
    refine ih ?_ others read
    exact List.forall_mem_append.mpr ⟨names, List.forall_mem_singleton.mpr listable⟩

theorem separable_of_readTyped? {text : String} {lists : List TypedList}
    (read : readTyped? text = some lists) : Separable lists :=
  separable_of_groups? (by simp) (fun _ member => isSolid_of_mem_splitAtBlanks member) read

/-- The lists that are read back from their text are those that stay apart. -/
theorem readTyped?_renderTyped_iff {lists : List TypedList} :
    readTyped? (renderTyped lists) = some lists ↔ Separable lists := by
  constructor
  · exact separable_of_readTyped?
  · intro apart
    have solid : ∀ l ∈ lists, ∀ label ∈ l.labels, isSolid label = true :=
      fun l listed label named => (isListable_iff.mp (apart.listable l listed label named)).1
    rw [readTyped?, splitAtBlanks_renderTyped solid, groups?_entries apart]

/-- Names without a type take the type of the names after them. -/
example : readTyped? (renderTyped [.untyped ["a"], .of ["b"] "t"]) =
    some [.of ["a", "b"] "t"] := by decide +kernel

end AlignPlan.Planning
