import AlignPlan.Encoding.Options
import AlignPlan.Text.ControlSequence

/-! Command line arguments. Parameters may be long or short, their values attached or in the
next argument, and flags may be clustered. A value that stands in an argument of its own is
looked into only when the next parameter or flag arrives or the arguments end, so a later
mistake of another kind can be the one that is reported. -/
namespace AlignPlan.CommandLine

/-- What takes a value. -/
inductive Parameter
  | automata | outDir | strategy | addPolicy | gotoGoalCost | colour
  deriving DecidableEq

/-- What takes none. -/
inductive Flag
  | problemOnly | verbose | quiet | help
  deriving DecidableEq

inductive Colour
  | auto | always | never
  deriving DecidableEq

def Colour.all : List Colour := [.auto, .always, .never]

def Colour.label : Colour → String
  | .auto => "auto"
  | .always => "always"
  | .never => "never"

namespace Parameter

def all : List Parameter :=
  [.automata, .outDir, .strategy, .addPolicy, .gotoGoalCost, .colour]

def long : Parameter → String
  | .automata => "automata"
  | .outDir => "out-dir"
  | .strategy => "strategy"
  | .addPolicy => "add-policy"
  | .gotoGoalCost => "goto-goal-cost"
  | .colour => "color"

def valueName : Parameter → String
  | .automata => "AUTOMATA_FILE"
  | .outDir => "OUT_DIR"
  | .strategy => "STRATEGY"
  | .addPolicy => "ADD_POLICY"
  | .gotoGoalCost => "GOTO_GOAL_COST"
  | .colour => "COLOR_CHOICE"

def usage (p : Parameter) : String := "--" ++ p.long ++ " <" ++ p.valueName ++ ">"

end Parameter

namespace Flag

def all : List Flag := [.problemOnly, .verbose, .quiet, .help]

def long : Flag → String
  | .problemOnly => "problem-only"
  | .verbose => "verbose"
  | .quiet => "quiet"
  | .help => "help"

/-- Dots mark the flags that may be repeated. -/
def usage : Flag → String
  | .problemOnly => "--problem-only"
  | .verbose => "--verbose..."
  | .quiet => "--quiet..."
  | .help => "--help"

end Flag

/-- What a name on the command line stands for. -/
inductive Switch
  | parameter (p : Parameter)
  | flag (f : Flag)

def longSwitch? (name : String) : Option Switch :=
  ((Parameter.all.find? fun p => p.long == name).map Switch.parameter).or
    ((Flag.all.find? fun f => f.long == name).map Switch.flag)

def shortSwitch? : Char → Option Switch
  | 'a' => some (.parameter .automata)
  | 'o' => some (.parameter .outDir)
  | 'v' => some (.flag .verbose)
  | 'q' => some (.flag .quiet)
  | 'h' => some (.flag .help)
  | _ => none

inductive UsageError
  | noAutomata
  | noValue (p : Parameter)
  | badValue (p : Parameter) (value : String)
  | unexpected (argument : String)
  | repeated (usage : String)
  | flagValue (f : Flag) (value : String)
  | conflict (first second : Flag)
  /-- Not a mistake: the user asks how the program is used. -/
  | help
  deriving DecidableEq

/-- Input of the user in a message, without anything a terminal would act on. -/
def quoted (input : String) : String := "'" ++ Text.plain input ++ "'"

def UsageError.message : UsageError → String
  | .noAutomata => "error: the following required arguments were not provided:"
  | .noValue p => "error: a value is required for '" ++ p.usage ++ "' but none was supplied"
  | .badValue p value => "error: invalid value " ++ quoted value ++ " for '" ++ p.usage ++ "'"
  | .unexpected argument => "error: unexpected argument " ++ quoted argument ++ " found"
  | .repeated usage => "error: the argument '" ++ usage ++ "' cannot be used multiple times"
  | .flagValue f value =>
    "error: unexpected value " ++ quoted value ++ " for '" ++ f.usage ++
      "' found; no more were expected"
  | .conflict first second =>
    "error: the argument '" ++ first.usage ++ "' cannot be used with '" ++ second.usage ++ "'"
  | .help => ""

/-- The settings given so far. `levels` has every `--verbose` and `--quiet` in order. -/
structure Settings where
  automata : Option String
  outDir : Option String
  strategy : Option Strategy
  addPolicy : Option AddPolicy
  gotoGoalCost : Option GotoGoalCost
  colour : Option Colour
  problemOnly : Bool
  levels : List Flag

namespace Settings

def empty : Settings := ⟨none, none, none, none, none, none, false, []⟩

def isSet (s : Settings) : Parameter → Bool
  | .automata => s.automata.isSome
  | .outDir => s.outDir.isSome
  | .strategy => s.strategy.isSome
  | .addPolicy => s.addPolicy.isSome
  | .gotoGoalCost => s.gotoGoalCost.isSome
  | .colour => s.colour.isSome

/-- A path may be any text but the empty one; other values are labels in their exact case. -/
def withValue? (s : Settings) (p : Parameter) (value : String) : Option Settings :=
  match p with
  | .automata => some { s with automata := some value }
  | .outDir => some { s with outDir := some value }
  | .strategy =>
    (chosen? Strategy.all Strategy.label value false).map fun v => { s with strategy := some v }
  | .addPolicy =>
    (chosen? AddPolicy.all AddPolicy.label value false).map fun v =>
      { s with addPolicy := some v }
  | .gotoGoalCost =>
    (chosen? GotoGoalCost.all GotoGoalCost.label value false).map fun v =>
      { s with gotoGoalCost := some v }
  | .colour =>
    (chosen? Colour.all Colour.label value false).map fun v => { s with colour := some v }

/-- A second value is refused before it is looked into. -/
def set (s : Settings) (p : Parameter) (value : String) : Except UsageError Settings :=
  if s.isSet p then .error (.repeated p.usage)
  else if value.isEmpty then .error (.noValue p)
  else
    match s.withValue? p value with
    | some s => .ok s
    | none => .error (.badValue p value)

def raise (s : Settings) : Flag → Except UsageError Settings
  | .problemOnly =>
    if s.problemOnly then .error (.repeated Flag.problemOnly.usage)
    else .ok { s with problemOnly := true }
  | .help => .error .help
  | level => .ok { s with levels := s.levels ++ [level] }

end Settings

/-- A reader between two arguments. -/
structure State where
  settings : Settings
  /-- The parameter that was named last, with the value that followed it. -/
  pending : Option (Parameter × Option String)
  /-- After `--` nothing is a switch. -/
  closed : Bool

namespace State

def start : State := ⟨.empty, none, false⟩

/-- Gives the pending parameter its value. -/
def settle (s : State) : Except UsageError State :=
  match s.pending with
  | none => .ok s
  | some (p, none) => .error (.noValue p)
  | some (p, some value) =>
    (s.settings.set p value).map fun settings => { s with settings, pending := none }

def raise (s : State) (f : Flag) : Except UsageError State := do
  let s ← s.settle
  let settings ← s.settings.raise f
  return { s with settings }

def set (s : State) (p : Parameter) (value : String) : Except UsageError State := do
  let s ← s.settle
  let settings ← s.settings.set p value
  return { s with settings }

def await (s : State) (p : Parameter) : Except UsageError State := do
  let s ← s.settle
  return { s with pending := some (p, none) }

/-- Short switches in one argument. The first parameter among them takes what is left as its
value, without an equals sign in front. -/
def takeShort (s : State) : List Char → Except UsageError State
  | [] => .ok s
  | c :: cs =>
    match shortSwitch? c with
    | none => .error (.unexpected ("-" ++ String.singleton c))
    | some (.flag f) =>
      match s.raise f with
      | .error e => .error e
      | .ok s => s.takeShort cs
    | some (.parameter p) =>
      match cs with
      | [] => s.await p
      | '=' :: value => s.set p (String.ofList value)
      | value => s.set p (String.ofList value)

/-- A long switch with its value, if one is attached. -/
def takeLong (s : State) (name : String) (value : Option String) : Except UsageError State :=
  match longSwitch? name, value with
  | none, _ => .error (.unexpected ("--" ++ name))
  | some (.parameter p), some value => s.set p value
  | some (.parameter p), none => s.await p
  | some (.flag f), some value => .error (.flagValue f value)
  | some (.flag f), none => s.raise f

def take (s : State) (argument : String) : Except UsageError State :=
  if s.closed then .error (.unexpected argument)
  else
    match argument.toList with
    | ['-', '-'] => .ok { s with closed := true }
    | '-' :: '-' :: rest =>
      let (name, value) := rest.span (· != '=')
      s.takeLong (String.ofList name)
        (match value with
          | [] => none
          | _ :: value => some (String.ofList value))
    | '-' :: c :: cs => s.takeShort (c :: cs)
    | _ =>
      match s.pending with
      | some (p, none) => .ok { s with pending := some (p, some argument) }
      | _ => .error (.unexpected argument)

def takeAll : State → List String → Except UsageError State
  | s, [] => s.settle
  | s, argument :: more =>
    match s.take argument with
    | .error e => .error e
    | .ok s => s.takeAll more

end State

/-- Of two conflicting flags the one that is done first is named first. -/
def levelConflict? (levels : List Flag) : Option UsageError :=
  if levels.contains .verbose && levels.contains .quiet then
    some (if levels.getLast? == some .quiet then .conflict .verbose .quiet
      else .conflict .quiet .verbose)
  else none

def readArguments (arguments : List String) : Except UsageError Settings :=
  match State.start.takeAll arguments with
  | .error e => .error e
  | .ok s =>
    match levelConflict? s.settings.levels with
    | some e => .error e
    | none => if s.settings.automata.isNone then .error .noAutomata else .ok s.settings

end AlignPlan.CommandLine
