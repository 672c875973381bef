/-! Text in colours. Where a style begins and ends is part of the text; whether it shows is
decided last. -/
namespace AlignPlan.Report

inductive Severity
  | error | warning
  deriving DecidableEq

inductive Style
  /-- The word that opens a located report. -/
  | heading (severity : Severity)
  | headingMessage
  /-- Line numbers and rules around the source. -/
  | margin
  | label (severity : Severity)
  /-- The word that opens a report without a place. -/
  | general (severity : Severity)
  deriving DecidableEq

inductive Piece
  | text (content : String)
  | start (style : Style)
  | stop
  deriving DecidableEq

def Style.codes : Style → String
  | .heading .error => "\x1b[1m\x1b[38;5;9m"
  | .heading .warning => "\x1b[1m\x1b[38;5;11m"
  | .headingMessage => "\x1b[1m"
  | .margin => "\x1b[34m"
  | .label .error => "\x1b[31m"
  | .label .warning => "\x1b[33m"
  | .general .error => "\x1b[1m\x1b[31m"
  | .general .warning => "\x1b[1m\x1b[33m"

def plainCode : String := "\x1b[0m"

/-- A style replaces the one before it. -/
def Piece.render (coloured : Bool) : Piece → String
  | .text content => content
  | .start style => if coloured then plainCode ++ style.codes else ""
  | .stop => if coloured then plainCode else ""

def renderPieces (coloured : Bool) (pieces : List Piece) : String :=
  String.join (pieces.map (Piece.render coloured))

def styled (style : Style) (content : String) : List Piece :=
  [.start style, .text content, .stop]

/-- A row of segments of which some are styled; neighbours of one style are one run. -/
def paint (previous : Option Style) : List (Option Style × String) → List Piece
  | [] => if previous.isSome then [.stop] else []
  | (style, content) :: more =>
    let change : List Piece :=
      if previous = style then []
      else
        match style with
        | some style => [.start style]
        | none => [.stop]
    change ++ .text content :: paint style more

end AlignPlan.Report
