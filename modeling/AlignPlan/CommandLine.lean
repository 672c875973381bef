import AlignPlan.Batch
import AlignPlan.CommandLine.Arguments

/-! The program as a whole: from arguments and a disk to what is shown, what is logged and how
the program ends. -/
namespace AlignPlan.CommandLine

/-- How much of the log is shown: warnings, more with every `--verbose`, only errors when
quiet. -/
def shownDetail (levels : List Flag) : Nat :=
  if levels.contains .quiet then 1 else min 4 (2 + levels.length)

def Settings.config (s : Settings) : Batch.Config where
  strategy := s.strategy.getD .replicated
  options := ⟨s.addPolicy.getD .unconstrained, s.gotoGoalCost.getD .free, s.problemOnly⟩
  outDir := s.outDir.getD "."

def Settings.coloured (s : Settings) : Bool := s.colour != some .never

inductive Ending
  | refused (e : UsageError)
  | finished (settings : Settings) (progress : Batch.Progress) (failure : Option Batch.Failure)

/-- Lines after the first are indented like the first. -/
def indented (first later text : String) : String :=
  first ++ ("\n" ++ later).intercalate (text.splitOn "\n")

def numberedCauses (number : Nat) : List String → String
  | [] => ""
  | cause :: causes =>
    let digits := Decimal.render number
    let first := Report.repeated ' ' (5 - digits.length) ++ digits ++ ": "
    "\n" ++ indented first "       " cause ++ numberedCauses (number + 1) causes

/-- A failure with its causes, which are numbered if there are several. -/
def failureText : Batch.Failure → String
  | [] => ""
  | [context] => "Error: " ++ context ++ "\n"
  | [context, cause] =>
    "Error: " ++ context ++ "\n\nCaused by:\n" ++ indented "    " "    " cause ++ "\n"
  | context :: causes =>
    "Error: " ++ context ++ "\n\nCaused by:" ++ numberedCauses 0 causes ++ "\n"

/-- A text up to its first line break, which may be a carriage return and a line feed. -/
def firstLine (text : String) : String :=
  match text.splitOn "\n" with
  | [] => ""
  | [line] => line
  | line :: _ => if line.endsWith "\r" then (line.dropEnd 1).toString else line

namespace Ending

def code : Ending → Nat
  | .refused .help => 0
  | .refused _ => 2
  | .finished _ _ none => 0
  | .finished _ _ (some _) => 1

/-- Reports go to standard output. -/
def output : Ending → String
  | .refused _ => ""
  | .finished settings progress _ => progress.reporter.text settings.coloured

/-- The log and the reason of a failure go to standard error; of a usage error its first line. -/
def errors : Ending → String
  | .refused e => firstLine e.message
  | .finished settings progress failure =>
    let shown := progress.log.filter fun r => r.level.detail ≤ shownDetail settings.levels
    String.join (shown.map Log.Record.line) ++ (failure.map failureText).getD ""

end Ending

variable {m : Type → Type} [Monad m]

def run (disk : Disk m) (arguments : List String) : m Ending := do
  match readArguments arguments with
  | .error e => pure (.refused e)
  | .ok settings =>
    let path := settings.automata.getD ""
    match ← Batch.compileFile disk settings.config .start path with
    | (progress, .ok _) => pure (.finished settings progress none)
    | (progress, .error failure) =>
      pure (.finished settings progress (some (("failed to compile " ++ path) :: failure)))

end AlignPlan.CommandLine
