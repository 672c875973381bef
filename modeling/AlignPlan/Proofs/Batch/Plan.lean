import AlignPlan.Batch
import AlignPlan.Proofs.Disk.Places
import AlignPlan.Proofs.Encoding.Accepted
import Mathlib.Data.List.TakeWhile

/-! What a plan for the traces of a document writes and reports, and what comes of it on a file
tree that accepts the files. -/
namespace AlignPlan

namespace Batch

variable {config : Config} {d : Document} {p : Progress} {t t' : FileTree}

def Config.path (config : Config) (name : String) : String := joinPath config.outDir name

/-- A trace on its own. -/
def encode (config : Config) (d : Document) (trace : TraceInput) : Except Fault Encoding :=
  Encoding.of config.strategy config.options trace.automaton d.constraints

/-- The traces before the first that cannot be encoded. -/
def ready (config : Config) (d : Document) (traces : List TraceInput) : List TraceInput :=
  traces.takeWhile fun trace => (encode config d trace).isOk

def domainText (config : Config) : String := (config.strategy.domain config.options).render

def problemText (config : Config) (d : Document) (trace : TraceInput) : String :=
  match encode config d trace with
  | .ok e => (e.problem trace.id).render
  | .error _ => ""

/-- The names of the files that traces amount to, each with its text. -/
def files (config : Config) (d : Document) (reuse : Bool) (traces : List TraceInput) :
    List (String × String) :=
  (if reuse || (ready config d traces).isEmpty then [] else [(domainFile, domainText config)]) ++
    (ready config d traces).map fun trace => (problemFile trace.id, problemText config d trace)

def Step.file? : Step → Option (String × String)
  | .write path text => some (path, text)
  | _ => none

def Step.diagnostic? : Step → Option Diagnostic
  | .report d => some d
  | _ => none

variable {trace : TraceInput} {traces : List TraceInput} {e : Encoding} {fault : Fault}

def Config.located (config : Config) (f : String × String) : String × String :=
  (config.path f.1, f.2)

end Batch

end AlignPlan
