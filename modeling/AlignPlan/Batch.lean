import AlignPlan.Disk
import AlignPlan.Encoding
import AlignPlan.Report

/-! From an automata file to files of planning tasks: every trace of the file is encoded with all
its constraints, until one cannot be. What is to be done is laid out as a list of steps first
and carried out on a disk afterwards. -/
namespace AlignPlan.Batch

structure Config where
  strategy : Strategy
  options : Options
  outDir : String

/-- Why a run failed, the outermost context first. -/
abbrev Failure := List String

inductive Step
  | log (record : Log.Record)
  | report (d : Diagnostic)
  | makeDirectories (path : String)
  | write (path text : String)

/-- Steps, and how the run ends if each of them can be taken: with the paths written or with a
failure. -/
structure Plan where
  steps : List Step
  outcome : Except Failure (List String)

def domainFile : String := "domain.pddl"

def problemFile (traceId : Nat) : String := Encoding.problemName traceId ++ ".pddl"

/-- A file name within a directory; the empty path is the working directory. -/
def joinPath (dir file : String) : String :=
  if dir.isEmpty then file
  else if dir.toList.getLast? == some '/' then dir ++ file
  else dir ++ "/" ++ file

/-- The files of one trace with their texts, the domain first. -/
def outputs (outDir : String) (traceId : Nat) (c : Compiled) : List (String × String) :=
  (match c.domain with
    | some text => [(joinPath outDir domainFile, text)]
    | none => []) ++
  [(joinPath outDir (problemFile traceId), c.problem)]

def writeSteps : List (String × String) → List Step
  | [] => []
  | (path, text) :: more =>
    .write path text :: .log ⟨.info, .batch, "Wrote " ++ path⟩ :: writeSteps more

/-- Only the first trace brings the domain along, which is the same for all. -/
def alignTraces (config : Config) (d : Document) (reuseDomain : Bool) :
    List TraceInput → Plan
  | [] => ⟨[], .ok []⟩
  | t :: ts =>
    let opening := (Encoding.log config.strategy t.automaton d.constraints).map Step.log
    let options := { config.options with reuseDomain := reuseDomain }
    match Encoding.of config.strategy options t.automaton d.constraints with
    | .error fault =>
      ⟨opening ++ [.report (.ofFault fault (d.spanOf fault.automaton))],
        .error ["failed to encode trace " ++ Decimal.render t.id, fault.message]⟩
    | .ok e =>
      let files := outputs config.outDir t.id (e.compile t.id)
      let rest := alignTraces config d true ts
      ⟨opening ++ writeSteps files ++ rest.steps,
        rest.outcome.map fun paths => files.map Prod.fst ++ paths⟩

def align (config : Config) (d : Document) : Plan :=
  if d.traces.isEmpty then ⟨[], .error ["no trace automaton to align"]⟩
  else
    let plan := alignTraces config d config.options.reuseDomain d.traces
    ⟨.makeDirectories config.outDir :: plan.steps, plan.outcome⟩

/-- What a run has said so far. -/
structure Progress where
  log : List Log.Record
  reporter : Reporter

namespace Progress

def start : Progress := ⟨[], .empty⟩

def note (p : Progress) (records : List Log.Record) : Progress :=
  { p with log := p.log ++ records }

/-- Hands over a report, and logs that it cannot be shown if so. -/
def report (p : Progress) (d : Diagnostic) : Progress :=
  let h : Handed := ⟨d, d.pieces? p.reporter.files⟩
  ⟨p.log ++ h.log, p.reporter.hand d⟩

end Progress

variable {m : Type → Type} [Monad m]

/-- Takes one step, or fails at the disk. -/
def Step.take (disk : Disk m) (p : Progress) : Step → m (Progress × Option Failure)
  | .log record => pure (p.note [record], none)
  | .report d => pure (p.report d, none)
  | .makeDirectories path => do
    match ← disk.makeDirectories path with
    | .ok () => pure (p, none)
    | .error e => pure (p, some ["failed to create " ++ path, e.message])
  | .write path text => do
    match ← disk.write path text with
    | .ok () => pure (p, none)
    | .error e => pure (p, some ["failed to write " ++ path, e.message])

/-- Takes steps up to the first that fails. -/
def takeSteps (disk : Disk m) : Progress → List Step → m (Progress × Option Failure)
  | p, [] => pure (p, none)
  | p, step :: steps => do
    match ← step.take disk p with
    | (p, none) => takeSteps disk p steps
    | (p, some failure) => pure (p, some failure)

def Plan.run (disk : Disk m) (p : Progress) (plan : Plan) :
    m (Progress × Except Failure (List String)) := do
  match ← takeSteps disk p plan.steps with
  | (p, none) => pure (p, plan.outcome)
  | (p, some failure) => pure (p, .error failure)

/-- Encodes the automata of a document. -/
def compileDocument (disk : Disk m) (config : Config) (p : Progress) (d : Document) :
    m (Progress × Except Failure (List String)) :=
  (align config d).run disk p

/-- The text of a file, or why there is none. -/
def decode : Except FileError ByteArray → Except String String
  | .error e => .error e.message
  | .ok bytes =>
    match String.fromUTF8? bytes with
    | some text => .ok text
    | none => .error "stream did not contain valid UTF-8"

/-- Reads a text as a file of its own and logs what it holds. -/
def Progress.parse (p : Progress) (name text : String) : Progress × Except Complaint Document :=
  let (reporter, result) := p.reporter.parse name text
  let records :=
    match result with
    | .ok d => [d.record name]
    | .error _ => []
  (⟨p.log ++ records, reporter⟩, result)

/-- Encodes the automata of a file. -/
def compileFile (disk : Disk m) (config : Config) (p : Progress) (path : String) :
    m (Progress × Except Failure (List String)) := do
  match decode (← disk.read path) with
  | .error e => pure (p, .error ["failed to load " ++ path ++ ": " ++ e])
  | .ok text =>
    match p.parse path text with
    | (p, .error complaint) => pure (p, .error [complaint.message])
    | (p, .ok d) => compileDocument disk config p d

end AlignPlan.Batch
