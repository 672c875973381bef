import AlignPlan.Text.ControlSequence

/-! What the program says about its own progress. A record is a value: the functions that do
the work never write one, the outer layer decides which are shown. -/
namespace AlignPlan.Log

inductive Level
  | error | warn | info | debug
  deriving DecidableEq

/-- The part of the program a record comes from. -/
inductive Topic
  | reading | encoding | replicated | shared | validation | naming | batch | reporting
  deriving DecidableEq

structure Record where
  level : Level
  topic : Topic
  message : String
  deriving DecidableEq

def Level.label : Level → String
  | .error => "ERROR"
  | .warn => "WARN"
  | .info => "INFO"
  | .debug => "DEBUG"

/-- Detail grows from errors to debugging output. -/
def Level.detail : Level → Nat
  | .error => 1
  | .warn => 2
  | .info => 3
  | .debug => 4

def Topic.target : Topic → String
  | .reading => "trace_alignment::parser"
  | .encoding => "trace_alignment::encoding"
  | .replicated => "trace_alignment::encoding::replicated"
  | .shared => "trace_alignment::encoding::shared"
  | .validation => "trace_alignment::static_checks"
  | .naming => "trace_alignment::names"
  | .batch => "trace_alignment::driver"
  | .reporting => "trace_alignment::diagnostic"

def Record.heading (r : Record) : String := r.level.label ++ " " ++ r.topic.target

/-- One line of the log on a terminal: labels are padded to one width and the later lines of a
message are indented. A record cannot change how the terminal shows what follows. -/
def Record.line (r : Record) : String :=
  let label := r.level.label
  let padded := label ++ String.ofList (List.replicate (5 - label.length) ' ')
  let body := "\n    ".intercalate (r.message.splitOn "\n")
  Text.plain ("[" ++ padded ++ " " ++ r.topic.target ++ "] " ++ body ++ "\n")

end AlignPlan.Log
