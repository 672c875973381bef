import AlignPlan.Report.Paint
import AlignPlan.Report.Source
import AlignPlan.Text.Blank
import AlignPlan.Text.Decimal
import AlignPlan.Text.Width

/-! A place in a source file, quoted with a mark under or beside it. A place within one line is
underlined; a longer one is bracketed in a gutter left of its lines, of which long stretches
are left out. -/
namespace AlignPlan.Report

open Format (byteLength)

/-- A character of a shown line: the bytes it takes and the columns it fills. -/
structure Cell where
  char : Char
  start : Nat
  stop : Nat
  width : Nat

def tabStop : Nat := 4

/-- A tab fills the columns up to the next multiple of four. -/
def cellsFrom (column start : Nat) : List Char → List Cell
  | [] => []
  | c :: cs =>
    let width := if c == '\t' then tabStop - column % tabStop else Text.width c
    let stop := start + c.utf8Size
    ⟨c, start, stop, width⟩ :: cellsFrom (column + width) stop cs

def cells (shown : List Char) : List Cell := cellsFrom 0 0 shown

def repeated (c : Char) (count : Nat) : String := String.ofList (List.replicate count c)

def Cell.source (c : Cell) : String :=
  if c.char == '\t' then repeated ' ' c.width else String.singleton c.char

/-- What a place covers of a line, in bytes from the start of the line. -/
inductive Mark
  | within (start stop : Nat)
  /-- The place begins on this line and goes on. -/
  | opening (start : Nat)
  | between
  /-- The place began on another line and ends here. -/
  | closing (stop : Nat)
  deriving DecidableEq

/-- Whether `start` to `stop` shares a byte with a cell. -/
def overlaps (start stop : Nat) (c : Cell) : Bool := max start c.start < min stop c.stop

def Mark.covers (m : Mark) (c : Cell) : Bool :=
  match m with
  | .within start stop => overlaps start stop c
  | .opening start => start ≤ c.start
  | .between => true
  | .closing stop => c.stop ≤ stop

/-- A place that begins in or before the first text of its line needs no underline there. -/
def opensLine (start : Nat) (shown : List Char) : Bool :=
  start ≤ byteLength (shown.takeWhile Text.isBlank)

/-- The measures that all rows of a snippet share. -/
structure Frame where
  severity : Severity
  message : String
  /-- The width of line numbers. -/
  digits : Nat

namespace Frame

def mark (f : Frame) : Style := .label f.severity

def border (symbol : String) : List Piece := styled .margin symbol

def margin (f : Frame) (symbol : String) : List Piece :=
  .text (repeated ' ' f.digits ++ " ") :: border symbol

def numbered (f : Frame) (number : Nat) : List Piece :=
  let digits := Decimal.render number
  styled .margin (repeated ' ' (f.digits - digits.length) ++ digits) ++ .text " " :: border "│"

/-- The gutter beside a row, with a rule where a longer place goes through. -/
def gutter (f : Frame) (symbol : Option String) : List Piece :=
  match symbol with
  | some symbol => .text " " :: styled f.mark symbol
  | none => [.text "  "]

def rule (m : Option Mark) : Option String :=
  match m with
  | some .between | some (.closing _) => some "│"
  | _ => none

/-- The rule beside the text of a line. -/
def lineRule (m : Option Mark) (shown : List Char) : Option String :=
  match m with
  | some (.opening start) => if opensLine start shown then some "╭" else none
  | m => rule m

def quotedSource (f : Frame) (m : Option Mark) (shown : List Char) : List Piece :=
  .text " " :: paint none ((cells shown).map fun c =>
    (if m.any (·.covers c) then some f.mark else none, c.source)) ++ [.text "\n"]

/-- The carets under a place within a line. One more column after the line can carry a caret;
the row goes no further than the place. -/
def carets (f : Frame) (start stop : Nat) (shown : List Char) : List Piece :=
  let length := byteLength shown
  let columns := cells shown ++ [⟨'\x00', length, length + 1, 1⟩]
  paint none (columns.map fun c =>
    if overlaps start stop c then (some f.mark, repeated '^' c.width)
    else (none, if c.start < stop then repeated ' ' c.width else ""))

def trailer (f : Frame) : List Piece :=
  if f.message.isEmpty then [] else .text " " :: styled f.mark f.message

/-- A rule as wide as the characters that begin before `limit`. -/
def reach (shown : List Char) (limit : Nat) : String :=
  let before := (cells shown).takeWhile fun c => c.start < limit
  repeated '─' (before.foldl (fun width c => width + c.width) 0)

/-- The row under a line that shows where in it the place begins or ends. -/
def underline (f : Frame) (m : Mark) (shown : List Char) : List Piece :=
  match m with
  | .within start stop =>
    f.margin "│" ++ .text " " :: f.carets start stop shown ++ f.trailer ++ [.text "\n"]
  | .opening start =>
    if opensLine start shown then []
    else
      f.margin "│" ++ f.gutter (some "╭") ++ styled f.mark (reach shown (start + 1) ++ "^") ++
        [.text "\n"]
  | .between => []
  | .closing stop =>
    let message := if f.message.isEmpty then "" else " " ++ f.message
    f.margin "│" ++ f.gutter (some "╰") ++ styled f.mark (reach shown stop ++ "^" ++ message) ++
      [.text "\n"]

/-- A line of source in a snippet with a gutter or without. -/
def sourceRow (f : Frame) (hasGutter : Bool) (line : Line) (m : Option Mark) : List Piece :=
  let shown := line.shown
  let side := if hasGutter then f.gutter (lineRule m shown) else []
  f.numbered line.number ++ side ++ f.quotedSource m shown

/-- The row that stands for lines left out after a line with mark `m`. -/
def gapRow (f : Frame) (m : Mark) : List Piece :=
  f.margin "·" ++ f.gutter (rule (some m)) ++ [.text "\n"]

end Frame

/-- How many lines of a long place are shown after its first and before its last. -/
def openingContext : Nat := 3

def closingContext : Nat := 1

/-- A line of a longer place. -/
structure Row where
  index : Nat
  line : Line
  mark : Mark

/-- The rows of a longer place that are always shown. A place given backwards has its ends in
the order of the file and nothing between. -/
def placeRows (lines : List Line) (first last : Nat) (start stop : Nat) : List Row :=
  lines.zipIdx.filterMap fun (line, index) =>
    if index == first then some ⟨index, line, .opening (start - line.start)⟩
    else if index == last then some ⟨index, line, .closing (stop - line.start)⟩
    else if first < index && index < last &&
        (index - first ≤ openingContext || last - index ≤ closingContext) then
      some ⟨index, line, .between⟩
    else none

/-- A gap of one line is filled with that line, a longer one is marked. -/
def showRows (f : Frame) (lines : List Line) (first last : Nat) : List Row → List Piece
  | [] => []
  | row :: more =>
    let own := f.sourceRow true row.line (some row.mark) ++ f.underline row.mark row.line.shown
    let gap :=
      match more with
      | [] => []
      | next :: _ =>
        if next.index == row.index + 1 then []
        else if next.index == row.index + 2 then
          let m := if first < row.index + 1 && row.index + 1 < last then some Mark.between else none
          match lines[row.index + 1]? with
          | some line => f.sourceRow true line m
          | none => []
        else f.gapRow row.mark
    own ++ gap ++ showRows f lines first last more

/-- A place in a file with the heading, the quoted lines and an empty line at the end. The line
of an offset past the end is the last one. -/
def snippet (severity : Severity) (message : String) (file : SourceFile) (start stop : Nat) :
    List Piece :=
  let lines := file.lines
  let first := lineIndexAt lines start
  let last := lineIndexAt lines stop
  let line := lines.getD first ⟨1, 0, []⟩
  let word :=
    match severity with
    | .error => "error"
    | .warning => "warning"
  let f : Frame := ⟨severity, message, (Decimal.render (max first last + 1)).length⟩
  let location := file.name ++ ":" ++ Decimal.render line.number ++ ":" ++
    Decimal.render (line.column start)
  let heading : List Piece :=
    [.start (.heading severity), .text word, .start .headingMessage, .text (": " ++ message),
     .stop, .text "\n"]
  let quoted :=
    if first == last then
      let low := start - line.start
      let m : Mark := .within low (max (stop - line.start) (low + 1))
      f.margin "│" ++ .text "\n" :: f.sourceRow false line (some m) ++ f.underline m line.shown
    else
      f.margin "│" ++ .text "  \n" ::
        showRows f lines first last (placeRows lines first last start stop)
  heading ++ f.margin "┌─" ++ .text (" " ++ location ++ "\n") :: quoted ++ [.text "\n"]

end AlignPlan.Report
