import AlignPlan.Proofs.Encoding.Legible
import AlignPlan.Proofs.Encoding.LetterCase

/-! Reading automata back. The objects of the states of one automaton start with a text of their
own, so a replicated problem can be taken apart into its automata, and its written form determines
them. -/
namespace AlignPlan

open Planning

/-- What problems depend on in an automaton. Its alphabet leaves no trace but the names of the
activities, and nothing is said about source files. -/
structure Automaton.Skeleton where
  states : List String
  initial : Option Nat
  accepting : List Nat
  transitions : List Transition
  deriving DecidableEq

def Automaton.skeleton (a : Automaton) : Skeleton :=
  ⟨a.states, a.initial, a.accepting, a.transitions⟩

namespace Encoding

/-- What follows a text that comes first. -/
def rest? (lead text : String) : Option String :=
  (text.toList.dropPrefix? lead.toList).map String.ofList

theorem rest?_eq_some {lead text rest : String} :
    rest? lead text = some rest ↔ text = lead ++ rest := by
  simp only [rest?, Option.map_eq_some_iff, List.dropPrefix?_eq_some_iff, beq_iff_eq]
  constructor
  · rintro ⟨_, ⟨_, same, rfl⟩, rfl⟩
    rw [← String.toList_inj, same]
    simp
  · rintro rfl
    exact ⟨rest.toList, ⟨_, String.toList_append, rfl⟩, by simp⟩

theorem rest?_append (lead rest : String) : rest? lead (lead ++ rest) = some rest :=
  rest?_eq_some.mpr rfl

theorem rest?_eq_none {lead text : String} :
    rest? lead text = none ↔ ∀ rest, text ≠ lead ++ rest := by
  simp [Option.eq_none_iff_forall_ne_some, rest?_eq_some]

/-- A first letter tells what is not led. -/
theorem rest?_eq_none_of_first {lead text : String} {c : Char}
    (first : lead.toList.head? = some c) (apart : text.toList.head? ≠ some c) :
    rest? lead text = none := by
  rw [rest?_eq_none]
  rintro rest rfl
  simp [first] at apart

/-- How the states of one automaton are found in a problem: by the lead of their objects, by the
type, and by the predicate of the transitions. -/
structure Reader where
  lead : String
  type : String
  predicate : String

namespace Reader

/-- The position of the state that an object stands for. -/
def place? (r : Reader) (states : List String) (object : String) : Option Nat :=
  (rest? r.lead object).bind states.idxOf?

def current? (r : Reader) (states : List String) : Formula → Option Nat
  | .atom "cur_state" [object] => r.place? states object
  | _ => none

def joined? (r : Reader) (states : List String) : Formula → Option Nat
  | .atom "dummy_trans" [source, _, _] => r.place? states source
  | _ => none

def step? (r : Reader) (states : List String) : Formula → Option Transition
  | .atom predicate [source, symbol, target] =>
    if predicate = r.predicate then do
      return ⟨← r.place? states source, symbol, ← r.place? states target⟩
    else none
  | _ => none

def states (r : Reader) (p : Problem) : List String :=
  (objectsOfType p.objects r.type).filterMap (rest? r.lead)

/-- The automaton as far as the problem shows it. One accepting state is part of the goal, several
of them have transitions into a joint state. -/
def read (r : Reader) (p : Problem) : Automaton.Skeleton where
  states := r.states p
  initial := (p.init.filterMap (r.current? (r.states p))).head?
  accepting := p.goal.filterMap (r.current? (r.states p)) ++
    p.init.filterMap (r.joined? (r.states p))
  transitions := p.init.filterMap (r.step? (r.states p))

end Reader

/-- If all elements but one contribute nothing, that one contributes everything. -/
theorem flatMap_eq_of_mem {α β : Type} {xs : List α} {x : α} {f : α → List β} (distinct : xs.Nodup)
    (member : x ∈ xs) (others : ∀ y ∈ xs, y ≠ x → f y = []) : xs.flatMap f = f x := by
  induction xs with
  | nil => simp at member
  | cons y ys ih =>
    obtain ⟨fresh, distinct⟩ := List.nodup_cons.mp distinct
    obtain ⟨first, later⟩ := List.forall_mem_cons.mp others
    rw [List.flatMap_cons]
    rcases List.mem_cons.mp member with rfl | member
    · have silent : ys.flatMap f = [] := by
        rw [List.flatMap_eq_nil_iff]
        exact fun y among => later y among fun same => fresh (same ▸ among)
      rw [silent, List.append_nil]
    · rw [first fun same => fresh (same ▸ member), ih distinct member later, List.nil_append]

namespace Reader

variable {r : Reader} {states : List String} {a : Automaton} {object : Nat → String}

/-- Objects that stand for no state of the reader's automaton. -/
theorem place?_eq_none {name : String} (foreign : rest? r.lead name = none) :
    r.place? states name = none := by
  simp [place?, foreign]

theorem place?_eq_some {k : Nat} (bound : k < a.size)
    (distinct : ∀ j < k, a.stateName j ≠ a.stateName k) :
    r.place? a.states (r.lead ++ a.stateName k) = some k := by
  rw [place?, rest?_append, Option.bind_some, List.idxOf?_eq_some_iff]
  have name {j : Nat} (within : j < a.size) : a.states[j] = a.stateName j := by
    simp [Automaton.stateName, Automaton.stateName?, List.getElem?_eq_getElem within]
  refine ⟨bound, name bound, fun j before same => distinct j before ?_⟩
  exact (name (Nat.lt_trans before bound)).symm.trans same

/-- A fact without a word on the reader's automaton. -/
structure Silent (r : Reader) (states : List String) (f : Formula) : Prop where
  current : r.current? states f = none
  joined : r.joined? states f = none
  step : r.step? states f = none

theorem filterMap_steps {ts : List Transition}
    (found : ∀ t ∈ ts, r.place? states (object t.source) = some t.source ∧
      r.place? states (object t.target) = some t.target) :
    (ts.map fun t => Formula.atom r.predicate
      [object t.source, t.symbol, object t.target]).filterMap (r.step? states) = ts := by
  rw [List.filterMap_map]
  refine (List.filterMap_congr fun t taken => ?_).trans List.filterMap_some
  obtain ⟨source, target⟩ := found t taken
  simp [step?, source, target]

/-- What starts with an object of another automaton is silent. -/
theorem silent_of_foreign {predicate name : String} {others : List String}
    (foreign : rest? r.lead name = none) : r.Silent states (.atom predicate (name :: others)) := by
  have none : r.place? states name = none := place?_eq_none foreign
  constructor
  · unfold current?
    split <;> simp_all
  · unfold joined?
    split <;> simp_all
  · unfold step?
    split <;> simp_all

theorem filterMap_silent {β : Type} {g : Formula → Option β} {fs : List Formula}
    (quiet : ∀ f, r.Silent states f → g f = none) (silent : ∀ f ∈ fs, r.Silent states f) :
    fs.filterMap g = [] := by
  rw [List.filterMap_eq_nil_iff]
  exact fun f member => quiet f (silent f member)

end Reader

/-- The name of the state behind an object of the reader's automaton. -/
def Reader.found? (r : Reader) (registered : Registration) : Option String :=
  if registered.type = r.type then rest? r.lead registered.name.render else none

theorem Reader.filterMap_found?_eq_nil {r : Reader} {registrations : List Registration}
    (other : ∀ registered ∈ registrations, registered.type ≠ r.type) :
    registrations.filterMap r.found? = [] := by
  rw [List.filterMap_eq_nil_iff]
  exact fun registered listed => if_neg (other registered listed)

theorem Reader.states_eq {e : Encoding} {traceId : Nat} (valid : e.Accepted) (r : Reader) :
    r.states (e.problem traceId) =
      (e.strategy.registrations e.trace e.constraints).filterMap r.found? := by
  have objects : (e.problem traceId).objects = e.table.objects := rfl
  rw [states, objects, valid.objects, objectsOfType, List.filterMap_map, List.filterMap_filter,
    List.filterMap_map]
  congr
  funext registered
  simp [found?]

/-- No id reaches over the underscore behind it. -/
theorem id_eq_of_append {a b : AutomatonId} {x y : String}
    (same : a.text ++ "_" ++ x = b.text ++ "_" ++ y) : a = b := by
  have letters := congrArg String.toList same
  rw [← AutomatonId.text_inj, ← String.toList_inj]
  exact ((append_separator_inj a.underscore_not_mem b.underscore_not_mem).mp
    (by simpa using letters)).1

namespace Replicated

def traceReader : Reader := ⟨"t", traceStateType, "trace"⟩

def constraintReader (id : AutomatonId) : Reader :=
  ⟨"s_" ++ id.text ++ "_", automatonStateType, "automaton"⟩

/-- What is said about a trace before its transitions. -/
def opening (trace : Automaton) : List Formula :=
  [.value totalCost 0, .atom "cur_state" [trace.traceObject trace.start],
    .atom "final_state" [trace.traceObject trace.firstAccepting]]

variable {e : Encoding} {traceId : Nat} {id : AutomatonId} {c d : Constraint}

theorem object_foreign_trace (p : Position) : rest? traceReader.lead (object c p) = none := by
  apply rest?_eq_none_of_first (c := 't') (by simp [traceReader])
  cases p <;> simp [object, stateObject, jointObject, ObjectName.render]

theorem traceObject_foreign {trace : Automaton} (k : Nat) :
    rest? (constraintReader id).lead (trace.traceObject k) = none :=
  rest?_eq_none_of_first (c := 's') (by simp [constraintReader])
    (by simp [Automaton.traceObject, ObjectName.render])

theorem jointObject_foreign : rest? (constraintReader id).lead (jointObject c) = none :=
  rest?_eq_none_of_first (c := 's') (by simp [constraintReader])
    (by simp [jointObject, ObjectName.render])

theorem object_foreign (other : c.id ≠ id) (p : Position) :
    rest? (constraintReader id).lead (object c p) = none := by
  cases p with
  | none => exact jointObject_foreign
  | some k =>
    rw [rest?_eq_none]
    intro rest same
    apply other
    apply id_eq_of_append (x := c.automaton.stateName k) (y := rest)
    simpa [object, stateObject, ObjectName.render, constraintReader, String.append_assoc] using same

theorem id_ne (distinct : (e.constraints.map Constraint.id).Nodup) (among : d ∈ e.constraints)
    (member : c ∈ e.constraints) (different : d ≠ c) : d.id ≠ c.id := fun same =>
  different (List.inj_on_of_nodup_map distinct among member same)

/-- The facts of a constraint say nothing to readers of other automata. -/
theorem silent_constraintFacts {r : Reader} {states : List String}
    (foreign : ∀ p, rest? r.lead (object c p) = none) :
    ∀ f ∈ constraintFacts c, r.Silent states f := by
  intro f listed
  simp only [constraintFacts, List.mem_append, List.mem_cons, List.mem_map] at listed
  rcases listed with (rfl | ⟨t, _, rfl⟩) | joint
  · exact Reader.silent_of_foreign (foreign (some _))
  · exact Reader.silent_of_foreign (foreign (some _))
  · unfold jointFacts at joint
    split at joint
    next => simp at joint
    next =>
      obtain ⟨state, _, rfl⟩ := List.mem_map.mp joint
      exact Reader.silent_of_foreign (foreign (some _))

section

variable {states : List String} (valid : c.automaton.WellFormed .constraint)
  (found : ∀ k < c.automaton.size,
    (constraintReader c.id).place? states (stateObject c k) = some k)

include valid found

theorem current_constraintFacts : (constraintFacts c).filterMap
    ((constraintReader c.id).current? states) = [c.automaton.start] := by
  have joins : (jointFacts c).filterMap ((constraintReader c.id).current? states) = [] := by
    unfold jointFacts
    split
    · rfl
    · simp [Reader.current?]
  have steps (object : Nat → String) (ts : List Transition) :
      (ts.map fun t => Formula.atom "automaton" [object t.source, t.symbol,
        object t.target]).filterMap ((constraintReader c.id).current? states) = [] := by
    simp [Reader.current?]
  simp [constraintFacts, joins, steps, Reader.current?, found _ valid.start_lt]

theorem steps_constraintFacts : (constraintFacts c).filterMap
    ((constraintReader c.id).step? states) = c.automaton.transitions := by
  have joins : (jointFacts c).filterMap ((constraintReader c.id).step? states) = [] := by
    unfold jointFacts
    split
    · rfl
    · simp [Reader.step?, constraintReader]
  have steps : (c.automaton.transitions.map fun t => Formula.atom "automaton"
      [stateObject c t.source, t.symbol, stateObject c t.target]).filterMap
        ((constraintReader c.id).step? states) = c.automaton.transitions := by
    apply Reader.filterMap_steps
    intro t taken
    obtain ⟨source, target, _⟩ := valid.transitions t taken
    exact ⟨found _ source, found _ target⟩
  rw [constraintFacts, List.cons_append, List.filterMap_cons_none rfl, List.filterMap_append, steps,
    joins, List.append_nil]

/-- The goal knows a single accepting state, transitions into the joint state know several. -/
theorem accepting_constraintFacts :
    [Formula.atom "cur_state" [target c]].filterMap ((constraintReader c.id).current? states) ++
      (constraintFacts c).filterMap ((constraintReader c.id).joined? states) =
        c.automaton.accepting := by
  have joined : (constraintFacts c).filterMap ((constraintReader c.id).joined? states) =
      (jointFacts c).filterMap ((constraintReader c.id).joined? states) := by
    simp [constraintFacts, Reader.joined?]
  have several : (c.automaton.accepting.map fun state => Formula.atom "dummy_trans"
      [stateObject c state, dummyName, jointObject c]).filterMap
        ((constraintReader c.id).joined? states) = c.automaton.accepting := by
    rw [List.filterMap_map]
    refine (List.filterMap_congr fun state accepting => ?_).trans List.filterMap_some
    exact found state (valid.accepting state accepting)
  have foreign : (constraintReader c.id).place? states (jointObject c) = none :=
    Reader.place?_eq_none jointObject_foreign
  rw [joined]
  have within := valid.accepting
  unfold target jointFacts
  generalize c.automaton.accepting = accepting at several within ⊢
  rcases accepting with _ | ⟨state, _ | ⟨_, _⟩⟩
  case nil => simp [Reader.current?, foreign]
  case cons.nil => simp [Reader.current?, found _ (within state List.mem_cons_self)]
  case cons.cons =>
    rw [several]
    simp [Reader.current?, foreign]

end

section

variable (replicated : e.strategy = .replicated) (valid : e.Accepted)
  (distinct : (e.constraints.map Constraint.id).Nodup)

include replicated valid

/-- Activities are no states. -/
theorem states_split {r : Reader} (known : r.type = traceStateType ∨ r.type = automatonStateType) :
    r.states (e.problem traceId) = (traceRegistrations e.trace).filterMap r.found? ++
      e.constraints.flatMap fun c => (constraintRegistrations c).filterMap r.found? := by
  have kinds : ∀ type ∈ [actType, dummyActType], type ≠ r.type := by
    rcases known with same | same <;> rw [same] <;> decide
  have activities : (activityRegistrations e.trace e.constraints actType ++
      [(⟨.dummyActivity, dummyActType, e.trace.name⟩ : Registration)]).filterMap r.found? = [] := by
    apply Reader.filterMap_found?_eq_nil
    intro registered listed
    simp only [activityRegistrations, List.mem_append, List.mem_map, List.mem_singleton] at listed
    rcases listed with ⟨_, _, rfl⟩ | rfl <;> exact kinds _ (by simp)
  rw [Reader.states_eq valid, registrations_eq replicated, registrations, List.append_assoc,
    List.filterMap_append, activities, List.append_nil, List.filterMap_append,
    List.filterMap_flatMap]

theorem states_trace : traceReader.states (e.problem traceId) = e.trace.states := by
  have own : (traceRegistrations e.trace).filterMap traceReader.found? = e.trace.states := by
    rw [traceRegistrations, List.filterMap_map]
    refine (List.filterMap_congr fun state _ => ?_).trans List.filterMap_some
    change (if traceStateType = traceStateType then rest? "t" ("t" ++ state) else none) = _
    rw [if_pos rfl, rest?_append]
  have others : (e.constraints.flatMap fun c =>
      (constraintRegistrations c).filterMap traceReader.found?) = [] := by
    rw [List.flatMap_eq_nil_iff]
    intro c _
    apply Reader.filterMap_found?_eq_nil
    intro registered listed
    rw [type_of_mem_constraintRegistrations listed]
    decide
  rw [states_split replicated valid (.inl rfl), own, others, List.append_nil]

include distinct

theorem states_constraint (member : c ∈ e.constraints) :
    (constraintReader c.id).states (e.problem traceId) = c.automaton.states := by
  have own : (constraintRegistrations c).filterMap (constraintReader c.id).found? =
      c.automaton.states := by
    have states : (c.automaton.states.map fun state =>
        (⟨.automatonState c.id state, automatonStateType, c.id.text⟩ : Registration)).filterMap
          (constraintReader c.id).found? = c.automaton.states := by
      rw [List.filterMap_map]
      refine (List.filterMap_congr fun state _ => ?_).trans List.filterMap_some
      change (if automatonStateType = automatonStateType then
        rest? ("s_" ++ c.id.text ++ "_") ("s_" ++ c.id.text ++ "_" ++ state) else none) = _
      rw [if_pos rfl, rest?_append]
    have joint : (constraintReader c.id).found?
        ⟨.jointAccept c.id, automatonStateType, c.id.text⟩ = none :=
      (if_pos rfl).trans jointObject_foreign
    rw [constraintRegistrations, List.filterMap_append, states]
    split <;> simp [joint]
  have others : ∀ d ∈ e.constraints, d ≠ c →
      (constraintRegistrations d).filterMap (constraintReader c.id).found? = [] := by
    intro d among different
    rw [List.filterMap_eq_nil_iff]
    intro registered listed
    obtain ⟨p, _, same⟩ := mem_objects.mp (List.mem_map_of_mem listed)
    rw [Reader.found?, same, object_foreign (id_ne distinct among member different) p]
    split <;> rfl
  have traces : (traceRegistrations e.trace).filterMap (constraintReader c.id).found? = [] := by
    apply Reader.filterMap_found?_eq_nil
    intro registered listed
    obtain ⟨state, _, rfl⟩ := List.mem_map.mp listed
    have apart : traceStateType ≠ automatonStateType := by decide
    exact apart
  rw [states_split replicated valid (.inr rfl), traces, List.nil_append,
    flatMap_eq_of_mem distinct.of_map member others, own]

omit distinct replicated in
theorem place?_trace {k : Nat} (bound : k < e.trace.size) :
    traceReader.place? e.trace.states (e.trace.traceObject k) = some k := by
  refine Reader.place?_eq_some bound fun j before same => ?_
  have object : e.trace.traceObject j = e.trace.traceObject k := by
    rw [Automaton.traceObject, same, Automaton.traceObject]
  exact absurd (valid.traceObject_inj bound object) (Nat.ne_of_lt before)

omit distinct in
theorem place?_constraint (member : c ∈ e.constraints) {k : Nat} (bound : k < c.automaton.size) :
    (constraintReader c.id).place? c.automaton.states (stateObject c k) = some k := by
  refine Reader.place?_eq_some bound fun j before same => ?_
  have object : object c (some j) = object c (some k) := by
    rw [object, stateObject, same, object, stateObject]
  have within : c.Has (some j) ∧ c.Has (some k) := ⟨Nat.lt_trans before bound, bound⟩
  have positions := object_inj replicated valid member member within.1 within.2 object
  exact absurd (Option.some.inj positions.2) (Nat.ne_of_lt before)

omit distinct valid in
theorem filterMap_init {β : Type} (g : Formula → Option β) :
    (e.problem traceId).init.filterMap g =
      (opening e.trace).filterMap g ++ (traceFacts e.trace "trace").filterMap g ++
        e.constraints.flatMap fun c => (constraintFacts c).filterMap g := by
  have facts : (e.problem traceId).init = init e.trace e.constraints := init_eq replicated
  rw [facts, init, ← opening, List.filterMap_append, List.filterMap_append,
    List.filterMap_flatMap]

omit distinct valid in
theorem filterMap_goal {β : Type} (g : Formula → Option β) :
    (e.problem traceId).goal.filterMap g =
      [.atom "final_state" [e.trace.traceObject e.trace.firstAccepting],
        .atom "cur_state" [e.trace.traceObject e.trace.firstAccepting]].filterMap g ++
      e.constraints.flatMap fun c => [.atom "cur_state" [target c]].filterMap g := by
  have facts : (e.problem traceId).goal = goal e.trace e.constraints := goal_eq replicated
  rw [facts, goal, List.filterMap_append, List.map_eq_flatMap, List.filterMap_flatMap]

omit distinct valid in
/-- Only the facts of the trace speak to its reader. -/
theorem filterMap_init_trace {β : Type} {g : Formula → Option β}
    (quiet : ∀ f, traceReader.Silent e.trace.states f → g f = none) :
    (e.problem traceId).init.filterMap g =
      (opening e.trace).filterMap g ++ (traceFacts e.trace "trace").filterMap g := by
  have constraints : (e.constraints.flatMap fun c => (constraintFacts c).filterMap g) = [] := by
    rw [List.flatMap_eq_nil_iff]
    exact fun c _ => Reader.filterMap_silent quiet (silent_constraintFacts object_foreign_trace)
  rw [filterMap_init replicated, constraints, List.append_nil]

omit valid in
/-- Only the facts of a constraint speak to its reader. -/
theorem filterMap_init_constraint (member : c ∈ e.constraints) {β : Type}
    {g : Formula → Option β}
    (quiet : ∀ f, (constraintReader c.id).Silent c.automaton.states f → g f = none) :
    (e.problem traceId).init.filterMap g = (constraintFacts c).filterMap g := by
  have others : ∀ d ∈ e.constraints, d ≠ c → (constraintFacts d).filterMap g = [] := by
    intro d among different
    have silent : ∀ f ∈ constraintFacts d,
        (constraintReader c.id).Silent c.automaton.states f :=
      silent_constraintFacts (object_foreign (id_ne distinct among member different))
    exact Reader.filterMap_silent quiet silent
  have traces : (traceFacts e.trace "trace").filterMap g = [] := by
    apply Reader.filterMap_silent quiet
    rw [traceFacts, List.forall_mem_map]
    exact fun t _ => Reader.silent_of_foreign (traceObject_foreign _)
  have before : (opening e.trace).filterMap g = [] := by
    apply Reader.filterMap_silent quiet
    simp only [opening, List.forall_mem_cons]
    exact ⟨⟨rfl, rfl, rfl⟩, Reader.silent_of_foreign (traceObject_foreign _),
      Reader.silent_of_foreign (traceObject_foreign _), by simp⟩
  rw [filterMap_init replicated, before, traces, flatMap_eq_of_mem distinct.of_map member others,
    List.nil_append, List.nil_append]

omit valid in
theorem filterMap_goal_constraint (member : c ∈ e.constraints) : (e.problem traceId).goal.filterMap
    ((constraintReader c.id).current? c.automaton.states) =
      [.atom "cur_state" [target c]].filterMap
        ((constraintReader c.id).current? c.automaton.states) := by
  have others : ∀ d ∈ e.constraints, d ≠ c → [Formula.atom "cur_state" [target d]].filterMap
      ((constraintReader c.id).current? c.automaton.states) = [] := by
    intro d among different
    have foreign : rest? (constraintReader c.id).lead (target d) = none :=
      target_eq ▸ object_foreign (id_ne distinct among member different) _
    simp [Reader.current?, Reader.place?_eq_none foreign]
  have trace : (constraintReader c.id).place? c.automaton.states
      (e.trace.traceObject e.trace.firstAccepting) = none :=
    Reader.place?_eq_none (traceObject_foreign _)
  rw [filterMap_goal replicated, flatMap_eq_of_mem distinct.of_map member others]
  simp [Reader.current?, trace]

omit distinct in
/-- The trace is found again. -/
theorem read_trace : traceReader.read (e.problem traceId) = e.trace.skeleton := by
  have start := place?_trace valid valid.trace.start_lt
  have done := place?_trace valid valid.trace.firstAccepting_lt
  have targets : (e.constraints.flatMap fun c => [Formula.atom "cur_state" [target c]].filterMap
      (traceReader.current? e.trace.states)) = [] := by
    rw [List.flatMap_eq_nil_iff]
    intro c _
    have foreign : rest? traceReader.lead (target c) = none := target_eq ▸ object_foreign_trace _
    simp [Reader.current?, Reader.place?_eq_none foreign]
  have steps : (traceFacts e.trace "trace").filterMap (traceReader.step? e.trace.states) =
      e.trace.transitions := by
    apply Reader.filterMap_steps
    intro t taken
    obtain ⟨source, target, _⟩ := valid.trace.transitions t taken
    exact ⟨place?_trace valid source, place?_trace valid target⟩
  have initial : (e.problem traceId).init.filterMap (traceReader.current? e.trace.states) =
      [e.trace.start] := by
    have steps : (traceFacts e.trace "trace").filterMap
        (traceReader.current? e.trace.states) = [] := by simp [traceFacts, Reader.current?]
    rw [filterMap_init_trace replicated fun _ silent => silent.current, steps]
    simp [opening, List.filterMap_cons, Reader.current?, start]
  have accepting : (e.problem traceId).goal.filterMap (traceReader.current? e.trace.states) ++
      (e.problem traceId).init.filterMap (traceReader.joined? e.trace.states) =
        e.trace.accepting := by
    rw [filterMap_init_trace replicated fun _ silent => silent.joined, filterMap_goal replicated,
      targets, valid.trace.accepting_trace]
    simp [opening, Reader.current?, Reader.joined?, traceFacts, done]
  have transitions : (e.problem traceId).init.filterMap (traceReader.step? e.trace.states) =
      e.trace.transitions := by
    rw [filterMap_init_trace replicated fun _ silent => silent.step, steps]
    simp [opening, Reader.step?]
  rw [Reader.read, states_trace replicated valid, initial, accepting, transitions, List.head?_cons,
    ← valid.trace.initial_eq_some]
  rfl

/-- Every constraint is found again. -/
theorem read_constraint (member : c ∈ e.constraints) :
    (constraintReader c.id).read (e.problem traceId) = c.automaton.skeleton := by
  have wellFormed := valid.constraints c member
  have found : ∀ k < c.automaton.size, (constraintReader c.id).place? c.automaton.states
      (stateObject c k) = some k := fun _ => place?_constraint replicated valid member
  rw [Reader.read, states_constraint replicated valid distinct member,
    filterMap_init_constraint replicated distinct member fun _ silent => silent.current,
    filterMap_init_constraint replicated distinct member fun _ silent => silent.joined,
    filterMap_init_constraint replicated distinct member fun _ silent => silent.step,
    filterMap_goal_constraint replicated distinct member, current_constraintFacts wellFormed found,
    accepting_constraintFacts wellFormed found, steps_constraintFacts wellFormed found,
    List.head?_cons, ← wellFormed.initial_eq_some]
  rfl

end

end Replicated

/-! ### From text to facts -/

theorem fact_injective {f g : Formula} (hf : isFact f = true) (hg : isFact g = true)
    (same : f.expression = g.expression) : f = g := by
  cases f with
  | atom predicate arguments =>
    cases g with
    | atom =>
      simp only [Formula.expression, Expression.list.injEq, List.cons.injEq,
        Expression.word.injEq] at same
      obtain ⟨rfl, words⟩ := same
      rw [List.map_injective_iff.mpr (fun _ _ => Expression.word.inj) words]
    | value =>
      cases arguments <;> simp [Formula.expression] at same
    | _ => simp [isFact] at hg
  | value fluent amount =>
    cases g with
    | atom predicate arguments =>
      cases arguments <;> simp [Formula.expression] at same
    | value =>
      simp only [Formula.expression, Expression.list.injEq, List.cons.injEq, Expression.word.injEq,
        true_and, and_true] at same
      rw [same.1, Decimal.render_injective same.2]
    | _ => simp [isFact] at hg
  | _ => simp [isFact] at hf

theorem facts_injective {fs gs : List Formula} (hf : ∀ f ∈ fs, isFact f = true)
    (hg : ∀ g ∈ gs, isFact g = true)
    (same : fs.map Formula.expression = gs.map Formula.expression) : fs = gs := by
  induction fs generalizing gs with
  | nil => simpa [eq_comm] using same
  | cons f fs ih =>
    cases gs with
    | nil => simp at same
    | cons g gs =>
      obtain ⟨first, later⟩ := List.cons.inj same
      obtain ⟨hf, hfs⟩ := List.forall_mem_cons.mp hf
      obtain ⟨hg, hgs⟩ := List.forall_mem_cons.mp hg
      rw [fact_injective hf hg first, ih hfs hgs later]

theorem objects_injective {os qs : List Object}
    (same : os.flatMap Object.expressions = qs.flatMap Object.expressions) : os = qs := by
  induction os generalizing qs with
  | nil => cases qs <;> simp_all [Object.expressions]
  | cons o os ih =>
    cases qs with
    | nil => simp [Object.expressions] at same
    | cons q qs =>
      obtain ⟨_, _⟩ := o
      obtain ⟨_, _⟩ := q
      simp only [List.flatMap_cons, Object.expressions, List.cons_append, List.nil_append,
        List.cons.injEq, Expression.word.injEq, true_and] at same
      rw [same.1, same.2.1, ih same.2.2]

/-- Problems of facts are told apart by their texts. -/
theorem problem_eq_of_render {p q : Problem}
    (hp : ∀ label ∈ p.labels, isWord label = true) (hq : ∀ label ∈ q.labels, isWord label = true)
    (factsp : ∀ f ∈ p.init ++ p.goal, isFact f = true)
    (factsq : ∀ f ∈ q.init ++ q.goal, isFact f = true) (same : p.render = q.render) : p = q := by
  have tokens : p.expression.tokens = q.expression.tokens := by
    rw [← (Problem.reads_render hp).same, ← (Problem.reads_render hq).same, same]
  have expressions := Expression.tokens_injective tokens
  rw [List.forall_mem_append] at factsp factsq
  simp only [Problem.expression, Expression.list.injEq, List.cons.injEq, Expression.word.injEq,
    true_and, and_true] at expressions
  obtain ⟨name, domain, objects, init, goal, metric⟩ := expressions
  obtain ⟨_, _, _, _, _, _⟩ := p
  obtain ⟨_, _, _, _, _, _⟩ := q
  rw [Problem.mk.injEq]
  exact ⟨name, domain, objects_injective objects, facts_injective factsp.1 factsq.1 init,
    facts_injective factsp.2 factsq.2 goal, metric⟩

/-! ### Two inputs with one text -/

section

variable {options options' : Options} {trace trace' : Automaton}
  {constraints constraints' : List Constraint} {e e' : Encoding} {i j : Nat}

theorem ids_nodup {strategy : Strategy}
    (made : Encoding.of strategy options trace constraints = .ok e) :
    (constraints.map Constraint.id).Nodup ∧ (e.constraints.map Constraint.id).Nodup := by
  obtain ⟨valid, _, _, rfl⟩ := of_eq_ok.mp made
  have distinct : (constraints.map Constraint.id).Nodup :=
    List.pairwise_map.mpr (inputFault?_eq_none.mp valid).2.2
  have order : (canonicalOrder constraints).Perm constraints := List.mergeSort_perm _ _
  exact ⟨distinct, (order.map Constraint.id).nodup_iff.mpr distinct⟩

/-- A constraint of one input is among those of the other, as far as the problem shows it. -/
theorem exists_constraint_of_problem_eq
    (made : Encoding.of .replicated options trace constraints = .ok e)
    (made' : Encoding.of .replicated options' trace' constraints' = .ok e')
    (same : e.problem i = e'.problem j) {c : Constraint} (member : c ∈ constraints) :
    ∃ c' ∈ constraints', c'.id = c.id ∧ c'.automaton.skeleton = c.automaton.skeleton := by
  have valid := accepted made
  have valid' := accepted made'
  obtain ⟨replicated, _, _, listed⟩ := inputs_of_ok made
  obtain ⟨replicated', _, _, listed'⟩ := inputs_of_ok made'
  have member := (listed c).mpr member
  -- The initial state has an object, and the other input lists it under the same id only.
  have start : c.Has (some c.automaton.start) := (valid.constraints c member).start_lt
  have object : ⟨_, automatonStateType⟩ ∈ (e.problem i).objects :=
    (Replicated.state_mem_objects replicated valid).mpr ⟨c, member, _, start, rfl⟩
  rw [same, Replicated.state_mem_objects replicated' valid'] at object
  obtain ⟨c', among, p, _, object⟩ := object
  have ids : c'.id = c.id := by
    by_contra other
    have foreign := Replicated.object_foreign other p
    have own : rest? (Replicated.constraintReader c.id).lead
        (Replicated.object c (some c.automaton.start)) = some _ := rest?_append _ _
    rw [← object, own] at foreign
    contradiction
  refine ⟨c', (listed' c').mp among, ids, ?_⟩
  have read : (Replicated.constraintReader c'.id).read (e'.problem j) = c'.automaton.skeleton :=
    Replicated.read_constraint replicated' valid' (ids_nodup made').2 among
  rw [← read, ids, ← same, Replicated.read_constraint replicated valid (ids_nodup made).2 member]

/-- The text of a replicated problem determines the number of the trace, the trace and, up to
their order, the constraints. -/
theorem replicated_text_lossless
    (made : Encoding.of .replicated options trace constraints = .ok e)
    (made' : Encoding.of .replicated options' trace' constraints' = .ok e')
    (same : (e.problem i).render = (e'.problem j).render) :
    i = j ∧ trace.skeleton = trace'.skeleton ∧
      (constraints.map fun c => (c.id, c.automaton.skeleton)).Perm
        (constraints'.map fun c => (c.id, c.automaton.skeleton)) := by
  have valid := accepted made
  have valid' := accepted made'
  obtain ⟨replicated, _, rfl, _⟩ := inputs_of_ok made
  obtain ⟨replicated', _, rfl, _⟩ := inputs_of_ok made'
  have facts {e : Encoding} (replicated : e.strategy = .replicated) (k : Nat) :
      ∀ f ∈ (e.problem k).init ++ (e.problem k).goal, isFact f = true := by
    have goal : (e.problem k).goal = Replicated.goal e.trace e.constraints :=
      Replicated.goal_eq replicated
    rw [List.forall_mem_append, goal]
    exact ⟨isFact_of_mem_init, Replicated.isFact_of_mem_goal⟩
  have problems : e.problem i = e'.problem j :=
    problem_eq_of_render (isWord_of_mem_problem_labels valid) (isWord_of_mem_problem_labels valid')
      (facts replicated i) (facts replicated' j) same
  have names : problemName i = problemName j := congrArg Problem.name problems
  refine ⟨Decimal.render_injective ((String.append_right_inj _).mp names), ?_, ?_⟩
  · rw [← Replicated.read_trace replicated valid, problems,
      Replicated.read_trace replicated' valid']
  · have distinct {cs : List Constraint} (ids : (cs.map Constraint.id).Nodup) :
        (cs.map fun c => (c.id, c.automaton.skeleton)).Nodup := by
      apply List.Nodup.of_map Prod.fst
      rwa [List.map_map]
    refine (List.perm_ext_iff_of_nodup (distinct (ids_nodup made).1)
      (distinct (ids_nodup made').1)).mpr fun pair => ?_
    simp only [List.mem_map]
    constructor
    · rintro ⟨c, member, rfl⟩
      obtain ⟨c', among, ids, skeletons⟩ :=
        exists_constraint_of_problem_eq made made' problems member
      exact ⟨c', among, by rw [ids, skeletons]⟩
    · rintro ⟨c, member, rfl⟩
      obtain ⟨c', among, ids, skeletons⟩ :=
        exists_constraint_of_problem_eq made' made problems.symm member
      exact ⟨c', among, by rw [ids, skeletons]⟩

end

/-- Two inputs with one text: other options, and the constraints in another order. -/
theorem replicated_text_lossless_sample :
    ((Sample.encoding .replicated ⟨.unconstrained, .free, false⟩
        [Sample.absence, Sample.existence]).problem 5).render =
      ((Sample.encoding .replicated ⟨.traceGuarded, .unit, true⟩
        [Sample.absence, Sample.existence]).problem 5).render ∧
    ([Sample.absence, Sample.existence].map fun c => (c.id, c.automaton.skeleton)).Perm
      ([Sample.existence, Sample.absence].map fun c => (c.id, c.automaton.skeleton)) := by
  have before : Sample.existence.id.le Sample.absence.id = false := by decide +kernel
  have order : canonicalOrder [Sample.existence, Sample.absence] =
      [Sample.absence, Sample.existence] := by
    simp [canonicalOrder, List.mergeSort, List.MergeSort.Internal.splitInTwo, before]
  have swapped : Encoding.of .replicated ⟨.traceGuarded, .unit, true⟩ Sample.trace
      [Sample.existence, Sample.absence] = .ok (Sample.encoding .replicated
        ⟨.traceGuarded, .unit, true⟩ [Sample.absence, Sample.existence]) := by
    rw [of_eq_ok, order]
    exact ⟨by decide +kernel, by simp, by decide +kernel, rfl⟩
  refine ⟨rfl, ?_⟩
  exact (replicated_text_lossless (i := 5) (j := 5)
    (Sample.made_both .replicated ⟨.unconstrained, .free, false⟩) swapped rfl).2.2

end Encoding

end AlignPlan
