import AlignPlan.Automaton.Id
import AlignPlan.Log
import AlignPlan.Name
import AlignPlan.Planning.Task

/-! The objects of a planning problem: how they are named, and the table that keeps their names
apart. The written names are part of the interface to readers of plans. -/
namespace AlignPlan

inductive ObjectName
  | traceState (state : String)
  | automatonState (id : AutomatonId) (state : String)
  /-- The state that joins the accepting states of a constraint with several of them. -/
  | jointAccept (id : AutomatonId)
  | automaton (id : AutomatonId)
  /-- A state shared by all constraints, known by position. -/
  | pooledState (index : Nat)
  | activity (symbol : String)
  | dummyActivity

def dummyName : String := "dummy"

def ObjectName.render : ObjectName → String
  | .traceState state => "t" ++ state
  | .automatonState id state => "s_" ++ id.text ++ "_" ++ state
  | .jointAccept id => "gs_" ++ id.text
  | .automaton id => "a" ++ id.text
  | .pooledState index => "s" ++ Decimal.render index
  | .activity symbol => symbol
  | .dummyActivity => dummyName

/-- An object with its type and the automaton it comes from. -/
structure Registration where
  name : ObjectName
  type : String
  owner : String

/-- An object that has its name for good. -/
structure ObjectEntry where
  name : String
  type : String
  owner : String
  deriving DecidableEq

def Registration.entry (r : Registration) : ObjectEntry := ⟨r.name.render, r.type, r.owner⟩

def ObjectEntry.object (e : ObjectEntry) : Planning.Object := ⟨e.name, e.type⟩

/-- Two objects whose names differ in letter case at most. -/
structure Clash where
  newcomer : ObjectEntry
  holder : ObjectEntry
  deriving DecidableEq

/-- The newcomer's automaton is the one to blame. -/
def Clash.fault (c : Clash) : Fault := ⟨c.newcomer.owner, .collision c.newcomer.name⟩

def Clash.record (c : Clash) : Log.Record :=
  ⟨.debug, .naming, c.newcomer.name ++ " from " ++ c.newcomer.owner ++
    " clashes with an object of " ++ c.holder.owner⟩

/-- The objects registered so far, in order. -/
structure ObjectTable where
  entries : List ObjectEntry
  deriving DecidableEq

namespace ObjectTable

def empty : ObjectTable := ⟨[]⟩

def holder? (t : ObjectTable) (name : String) : Option ObjectEntry :=
  let key := Name.caseless name
  t.entries.find? fun e => Name.caseless e.name == key

def add (t : ObjectTable) (r : Registration) : Except Clash ObjectTable :=
  match t.holder? r.name.render with
  | some holder => .error ⟨r.entry, holder⟩
  | none => .ok ⟨t.entries ++ [r.entry]⟩

/-- Stops at the first clash. -/
def addAll : ObjectTable → List Registration → Except Clash ObjectTable
  | t, [] => .ok t
  | t, r :: rs =>
    match t.add r with
    | .error clash => .error clash
    | .ok t => t.addAll rs

def objects (t : ObjectTable) : List Planning.Object := t.entries.map ObjectEntry.object

def size (t : ObjectTable) : Nat := t.entries.length

def countOfType (t : ObjectTable) (type : String) : Nat :=
  (Planning.objectsOfType t.objects type).length

end ObjectTable

end AlignPlan
