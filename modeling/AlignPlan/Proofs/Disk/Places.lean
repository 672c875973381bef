import AlignPlan.Disk

/-! Where paths lead in a file tree. That depends on its directories alone, which writing a file
leaves as they are; making directories leaves the files as they are. -/
namespace AlignPlan

namespace FileTree

variable {t t' : FileTree} {place other last : Place} {path name : String} {names : List String}

/-- The content of a file, if there is one at this place. -/
def file? (t : FileTree) (place : Place) : Option ByteArray :=
  match t.entry? place with
  | some (.file bytes) => some bytes
  | _ => none

theorem lookup_replaced (entries : List (Place × Entry)) (place : Place) (e : Entry)
    (other : Place) :
    (entries.map fun (p, old) => if p == place then (p, e) else (p, old)).lookup other =
      if other = place then (entries.lookup other).map fun _ => e else entries.lookup other := by
  induction entries with
  | nil => simp
  | cons entry entries ih =>
    obtain ⟨p, old⟩ := entry
    rw [List.map_cons, List.lookup_cons, ih]
    by_cases here : other = p
    · by_cases same : p = place <;> simp [here, same]
    · have apart : (other == p) = false := by simpa using here
      by_cases same : p = place
      · subst same
        simp [here, List.lookup_cons, apart]
      · simp [same, List.lookup_cons, apart]

theorem lookup_insert (t : FileTree) (place : Place) (e : Entry) (other : Place) :
    (t.insert place e).entries.lookup other =
      if other = place then some e else t.entries.lookup other := by
  unfold insert
  by_cases found : (t.entries.lookup place).isSome = true
  · rw [if_pos found, lookup_replaced]
    by_cases same : other = place
    · obtain ⟨old, found⟩ := Option.isSome_iff_exists.mp found
      simp [same, found]
    · rw [if_neg same, if_neg same]
  · rw [if_neg found, List.lookup_append, List.lookup_cons]
    by_cases same : other = place
    · have missing : t.entries.lookup place = none := Option.not_isSome_iff_eq_none.mp found
      simp [same, missing]
    · have apart : (other == place) = false := by simpa using same
      simp [same, apart]

theorem entry?_insert (free : isGiven place = false) (e : Entry) (other : Place) :
    entry? (t.insert place e) other = if other = place then some e else t.entry? other := by
  unfold entry?
  rw [lookup_insert]
  by_cases same : other = place
  · simp [same, free]
  · rw [if_neg same, if_neg same]

/-- The place that a name leads to from another. -/
def enter (place : Place) (name : String) : Place :=
  if isIdle name then place else if name == ".." then parent place else place ++ [name]

theorem follow_cons : t.follow place (name :: names) = .ok last ↔
    t.entry? place = some .directory ∧ name.utf8ByteSize ≤ nameLimit ∧
      t.follow (enter place name) names = .ok last := by
  rw [follow]
  split
  next missing => simp [missing]
  next found => simp [found]
  next found =>
    by_cases long : nameLimit < name.utf8ByteSize
    · have unfit : ¬name.utf8ByteSize ≤ nameLimit := by omega
      simp [long, unfit]
    · have short : name.utf8ByteSize ≤ nameLimit := by omega
      simp only [found, long, short, enter, if_false, true_and]
      split
      next => rfl
      next => split <;> rfl

theorem resolve_eq_ok : t.resolve path = .ok place ↔ pathError? path = none ∧
    t.follow (splitPath path).1 (splitPath path).2 = .ok place := by
  unfold resolve
  split <;> simp [*]

theorem write_eq_ok {bytes : ByteArray} : t.write path bytes = .ok t' ↔
    ∃ place, t.resolve path = .ok place ∧ t.entry? place ≠ some .directory ∧
      t' = t.insert place (.file bytes) := by
  unfold write
  cases t.resolve path with
  | error e => simp
  | ok place =>
    cases found : t.entry? place with
    | none => simp [found, eq_comm]
    | some e => cases e <;> simp [found, eq_comm]

/-- A file can be put where the path leads. -/
def Accepts (t : FileTree) (path : String) : Prop := ∃ bytes t', t.write path bytes = .ok t'

theorem accepts_iff : t.Accepts path ↔
    ∃ place, t.resolve path = .ok place ∧ t.entry? place ≠ some .directory := by
  constructor
  · rintro ⟨bytes, t', written⟩
    obtain ⟨place, resolved, free, _⟩ := write_eq_ok.mp written
    exact ⟨place, resolved, free⟩
  · rintro ⟨place, resolved, free⟩
    exact ⟨ByteArray.empty, _, write_eq_ok.mpr ⟨place, resolved, free, rfl⟩⟩

/-- Directories are in the same places. -/
def SameDirectories (t t' : FileTree) : Prop :=
  ∀ place, t'.entry? place = some .directory ↔ t.entry? place = some .directory

theorem SameDirectories.follow (same : t.SameDirectories t') :
    t'.follow place names = .ok last ↔ t.follow place names = .ok last := by
  induction names generalizing place with
  | nil => rfl
  | cons name names ih => simp only [follow_cons, same place, ih]

theorem SameDirectories.resolve (same : t.SameDirectories t') :
    t'.resolve path = .ok place ↔ t.resolve path = .ok place := by
  simp only [resolve_eq_ok, same.follow]

theorem SameDirectories.accepts (same : t.SameDirectories t') :
    t'.Accepts path ↔ t.Accepts path := by
  simp only [accepts_iff, same.resolve, ne_eq, same _]

theorem isGiven_eq_false (free : t.entry? place ≠ some .directory) : isGiven place = false := by
  unfold entry? at free
  split at free
  next => contradiction
  next given => simpa using given

/-- Directories take no file's place. -/
theorem file?_of_makeDirectory (made : t.makeDirectory path = .ok t') (place : Place) :
    t'.file? place = t.file? place := by
  unfold makeDirectory at made
  split at made
  next => cases made
  next =>
    simp only at made
    split at made
    next => cases made
    next here _ =>
      split at made
      next => cases made
      next vacant =>
        cases made
        have missing : t.entry? here = none := by simpa using vacant
        have noDirectory : t.entry? here ≠ some .directory := by simp [missing]
        have free : isGiven here = false := isGiven_eq_false noDirectory
        unfold file?
        rw [entry?_insert free]
        by_cases same : place = here
        · simp [same, missing]
        · rw [if_neg same]

/-- Files stay as they are, whatever an action may do to directories. -/
def KeepsFiles {α : Type} (action : StateM FileTree α) : Prop :=
  ∀ t place, (action t).2.file? place = t.file? place

namespace KeepsFiles

variable {α β : Type}

theorem pure (value : α) : KeepsFiles (Pure.pure value) := fun _ _ => rfl

theorem bind {action : StateM FileTree α} {next : α → StateM FileTree β}
    (first : KeepsFiles action) (then' : ∀ value, KeepsFiles (next value)) :
    KeepsFiles (action >>= next) := by
  intro t place
  exact (then' (action t).1 (action t).2 place).trans (first t place)

theorem makeDirectory (path : String) : KeepsFiles (disk.makeDirectory path) := by
  intro t place
  simp only [disk, change]
  split
  next made => exact file?_of_makeDirectory made place
  next => rfl

theorem acceptDirectory (path : String) (e : FileError) :
    KeepsFiles (disk.acceptDirectory path e) := by
  have looks : KeepsFiles (disk.isDirectory path) := fun _ _ => rfl
  apply looks.bind
  intro found
  cases found <;> exact .pure _

theorem makeFirst (paths : List String) : KeepsFiles (disk.makeFirst paths) := by
  induction paths with
  | nil => exact .pure _
  | cons path outer ih =>
    apply (makeDirectory path).bind
    intro result
    cases result with
    | ok => exact .pure _
    | error e =>
      cases e with
      | notFound =>
        apply ih.bind
        intro result
        cases result with
        | ok =>
          apply (makeDirectory path).bind
          intro result
          cases result with
          | ok => exact .pure _
          | error e => exact acceptDirectory path e
        | error e => exact .pure _
      | _ => exact acceptDirectory path _

theorem makeDirectories (path : String) : KeepsFiles (disk.makeDirectories path) := by
  unfold Disk.makeDirectories
  split
  next => exact .pure _
  next => exact makeFirst _

end KeepsFiles

end FileTree

end AlignPlan
