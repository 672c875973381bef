import AlignPlan.Proofs.Format.Excerpts
import AlignPlan.Proofs.Format.TreeWalk
import AlignPlan.Report

/-! What is reported of a text. A text that makes no document is complained of once, in a place
where something was read or could not be, and the user is shown that place of the file that the
text was registered as. -/
namespace AlignPlan

open Format

/-- The two ends of what a complaint is about. -/
def Complaint.place (c : Complaint) : Nat × Nat := (c.start, c.stop)

/-- The complaint is about one of some places. It is not about the id of a constraint, since no
block is read whose id is not valid. -/
structure Complaint.Concerns (c : Complaint) (own : List (Nat × Nat)) : Prop where
  place : c.place ∈ own
  cause : ∀ fault, c.cause ≠ .badConstraintId fault

theorem Complaint.Concerns.mono {c : Complaint} {own more : List (Nat × Nat)}
    (h : c.Concerns own) (within : own ⊆ more) : c.Concerns more :=
  ⟨within h.place, h.cause⟩

theorem Complaint.concerns_about {α : Type} [Placed α] {x : Located α} {cause : Complaint.Cause}
    (other : ∀ fault, cause ≠ .badConstraintId fault) :
    (Complaint.about x cause).Concerns (places x) :=
  ⟨List.mem_cons_self, other⟩

theorem Format.places_subset {α : Type} [Placed α] {x : α} {xs : List α} (member : x ∈ xs) :
    places x ⊆ places xs :=
  fun _ own => List.mem_flatMap.mpr ⟨x, member, own⟩

namespace Automaton

variable {a : Automaton} {file : Nat} {c : Complaint}

theorem concerns_of_resolve {token : Token} (h : a.resolve token = .error c) :
    c.Concerns (places token) := by
  unfold resolve at h
  split at h
  · cases h
  · cases h
    exact Complaint.concerns_about (by simp)

theorem concerns_of_acceptNamed {tokens : List Token} (h : a.acceptNamed tokens = .error c) :
    c.Concerns (places tokens) := by
  fun_induction acceptNamed a tokens with
  | case1 => cases h
  | case2 a token tokens _ first =>
    cases h
    exact (concerns_of_resolve first).mono (List.subset_append_left _ _)
  | case3 a token tokens state _ ih => exact (ih h).mono (List.subset_append_right _ _)

theorem concerns_of_apply {item : Located Item} (h : a.apply file item = .error c) :
    c.Concerns (places item) := by
  -- The place of an item comes before those of its names.
  have named {token : Token} (member : token ∈ item.value.tokens)
      (h : a.resolve token = .error c) : c.Concerns (places item) :=
    (concerns_of_resolve h).mono
      (List.Subset.trans (places_subset member) (List.subset_cons_self _ _))
  obtain ⟨value, start, stop⟩ := item
  cases value with
  | states names => cases h
  | alphabet names => cases h
  | init name =>
    simp only [apply] at h
    split at h
    next =>
      cases h
      exact Complaint.concerns_about (by simp)
    next =>
      split at h
      next unknown =>
        cases h
        exact named List.mem_cons_self unknown
      next => cases h
  | accept names => exact (concerns_of_acceptNamed h).mono (List.subset_cons_self _ _)
  | transition source symbol target =>
    simp only [apply] at h
    split at h
    next unknown =>
      cases h
      exact named List.mem_cons_self unknown
    next unknown _ =>
      cases h
      exact named (.tail _ (.tail _ (.head _))) unknown
    next => cases h

theorem concerns_of_applyAll {items : List (Located Item)}
    (h : a.applyAll file items = .error c) : c.Concerns (places items) := by
  fun_induction applyAll file a items with
  | case1 => cases h
  | case2 a item items _ first =>
    cases h
    exact (concerns_of_apply first).mono (List.subset_append_left _ _)
  | case3 a item items next _ ih => exact (ih h).mono (List.subset_append_right _ _)

theorem concerns_of_ofBlock {name : String} {block : Located Block}
    (h : ofBlock file name block = .error c) : c.Concerns (places block) :=
  (concerns_of_applyAll h).mono
    (List.Subset.trans (List.subset_append_right _ _) (List.subset_cons_self _ _))

end Automaton

namespace Document

variable {d : Document} {file : Nat} {text : String} {c : Complaint} {block : Located Block}
  {blocks : List (Located Block)}

theorem concerns_of_addTrace (h : d.addTrace file block = .error c) :
    c.Concerns (places block) := by
  unfold addTrace at h
  extract_lets token at h
  split at h
  next =>
    cases h
    have aboutId : (Complaint.about token (.longTraceId token.value)).Concerns (places token) :=
      Complaint.concerns_about (by simp)
    exact aboutId.mono
      (List.Subset.trans (List.subset_append_left _ _) (List.subset_cons_self _ _))
  next =>
    split at h
    next refused =>
      cases h
      exact Automaton.concerns_of_ofBlock refused
    next =>
      split at h
      · cases h
        exact Complaint.concerns_about (by simp)
      · cases h

theorem concerns_of_addConstraint {id : AutomatonId}
    (valid : AutomatonId.ofString block.value.id.value = .ok id)
    (h : d.addConstraint file block = .error c) : c.Concerns (places block) := by
  simp only [addConstraint, valid] at h
  split at h
  next refused =>
    cases h
    exact Automaton.concerns_of_ofBlock refused
  next => cases h

theorem concerns_of_addBlock (legible : block.value.Legible)
    (h : d.addBlock file block = .error c) : c.Concerns (places block) := by
  unfold addBlock at h
  split at h
  next => exact concerns_of_addTrace h
  next kind =>
    obtain ⟨id, valid⟩ := legible.id kind
    exact concerns_of_addConstraint valid h

theorem concerns_of_addBlocks (legible : ∀ block ∈ blocks, block.value.Legible)
    (h : d.addBlocks file blocks = .error c) : c.Concerns (places blocks) := by
  fun_induction addBlocks file d blocks with
  | case1 => cases h
  | case2 d block blocks _ first =>
    cases h
    have first := concerns_of_addBlock (legible block List.mem_cons_self) first
    exact first.mono (List.subset_append_left _ _)
  | case3 d block blocks next _ ih =>
    rw [List.forall_mem_cons] at legible
    exact (ih legible.2 h).mono (List.subset_append_right _ _)

/-- Complaints are about what lies between two characters of the text. -/
theorem between_of_parse (h : parse file text = .error c) :
    (∀ fault, c.cause ≠ .badConstraintId fault) ∧
      ∃ d, (Cursor.ofString text).Between d c.place := by
  cases found : Grammar.file.read (Cursor.ofString text) with
  | none =>
    unfold parse at h
    rw [readBlocks_eq_error found] at h
    cases h
    refine ⟨by simp, ?_⟩
    rcases Grammar.bounded_file.trail (Cursor.ofString text) Trail.start with same | ⟨d, reached, same⟩
    · exact ⟨_, _, _, .refl _, .refl _, .refl _, Prod.ext same same⟩
    · exact ⟨d, d, d, reached, .refl d, .refl d, Prod.ext same same⟩
  | some result =>
    obtain ⟨blocks, after⟩ := result
    have read := readBlocks_eq_ok found
    rw [parse_of_readBlocks read] at h
    have concerns := concerns_of_addBlocks (legible_of_readBlocks read) h
    exact ⟨concerns.cause, after, (Grammar.bounded_file.read _ _ _ found).2 _ concerns.place⟩

end Document

theorem Format.Cursor.Between.exists_delimits {text : String} {d : Cursor} {place : Nat × Nat}
    (h : (Cursor.ofString text).Between d place) (file : Nat) :
    ∃ own, Span.Delimits ⟨place.1, place.2, file⟩ text own := by
  obtain ⟨first, last, ⟨before, whole, start⟩, ⟨own, rest, stop⟩, _, rfl⟩ := h
  rw [rest, ← List.append_assoc] at whole
  exact ⟨String.ofList own, Span.delimits_of_toList whole (start.trans (Nat.zero_add _)) stop⟩

/-- What the user is told of a refusal, if anything. -/
def Refusal.diagnostic? (file : Nat) : Refusal → Option Diagnostic
  | .complaint c => some (.ofComplaint c file)
  | .malformed message start stop => some ⟨.error, message, some ⟨start, stop, file⟩⟩
  | .internal _ => none

namespace Reporter

/-- Reads a text as a new file by way of its syntax tree, and reports why it is refused, if so. -/
def parseTree (r : Reporter) (name text : String) : Reporter × Except Refusal Document :=
  let file := r.files.length
  let r := r.addFile name text
  match Document.ofTree file text with
  | .ok d => (r, .ok d)
  | .error refusal =>
    match refusal.diagnostic? file with
    | some d => (r.hand d, .error refusal)
    | none => (r, .error refusal)

section Parse

variable {r : Reporter} {name text : String} {d : Document} {c : Complaint}

theorem parse_of_ok (h : Document.parse r.files.length text = .ok d) :
    r.parse name text = (r.addFile name text, .ok d) := by
  unfold parse
  extract_lets file after
  rw [h]

theorem parse_of_error (h : Document.parse r.files.length text = .error c) :
    r.parse name text =
      ((r.addFile name text).hand (.ofComplaint c r.files.length), .error c) := by
  unfold parse
  extract_lets file after
  rw [h]

theorem parseTree_eq (r : Reporter) (name text : String) : r.parseTree name text =
    ((r.parse name text).1, (r.parse name text).2.mapError .complaint) := by
  unfold parseTree
  extract_lets file after
  rw [Document.ofTree_eq]
  cases h : Document.parse file text with
  | ok d =>
    rw [parse_of_ok h]
    rfl
  | error c =>
    rw [parse_of_error h]
    rfl

end Parse

/-- Reading a text registers it and either succeeds in silence or reports once what is wrong in it
and where. No text is refused for any other reason. -/
theorem parse_reports (r : Reporter) (name text : String) :
    r.parseTree name text =
      ((r.parse name text).1, (r.parse name text).2.mapError .complaint) ∧
    (r.parse name text).1.files = r.files ++ [⟨name, text⟩] ∧
    match (r.parse name text).2 with
    | .ok _ => (r.parse name text).1.handed = r.handed
    | .error c => (∀ fault, c.cause ≠ .badConstraintId fault) ∧ ∃ place own,
        place.file = r.files.length ∧ Span.Delimits place text own ∧
        (r.parse name text).1.handed = r.handed ++ [⟨⟨.error, c.message, some place⟩,
          some (Report.snippet .error c.message ⟨name, text⟩ place.start place.stop)⟩] := by
  refine ⟨r.parseTree_eq name text, ?_⟩
  cases found : Document.parse r.files.length text with
  | ok d =>
    rw [parse_of_ok found]
    exact ⟨rfl, rfl⟩
  | error c =>
    obtain ⟨cause, d, between⟩ := Document.between_of_parse found
    obtain ⟨own, delimits⟩ := between.exists_delimits r.files.length
    have registered : (r.addFile name text).files[r.files.length]? = some ⟨name, text⟩ :=
      List.getElem?_concat_length
    rw [parse_of_error found]
    refine ⟨rfl, cause, ⟨c.start, c.stop, r.files.length⟩, own, rfl, delimits, ?_⟩
    simp only [hand, Diagnostic.pieces?, Diagnostic.ofComplaint, registered, Option.map_some]
    rfl

end Reporter

end AlignPlan
