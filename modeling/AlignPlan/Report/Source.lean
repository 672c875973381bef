import AlignPlan.Format.Cursor

/-! Source files as reports quote them: lines that end at line feeds, found by byte offset. -/
namespace AlignPlan.Report

open Format (byteLength)

structure SourceFile where
  name : String
  text : String

/-- A line with its line feed. `number` counts from one and `start` is a byte offset. -/
structure Line where
  number : Nat
  start : Nat
  chars : List Char

def splitLines : List Char → List (List Char)
  | [] => [[]]
  | c :: cs =>
    if c == '\n' then [c] :: splitLines cs
    else
      match splitLines cs with
      | [] => [[c]]
      | line :: lines => (c :: line) :: lines

def numberLines (number start : Nat) : List (List Char) → List Line
  | [] => []
  | chars :: more =>
    ⟨number, start, chars⟩ :: numberLines (number + 1) (start + byteLength chars) more

def SourceFile.lines (f : SourceFile) : List Line := numberLines 1 0 (splitLines f.text.toList)

/-- The index of the last line that starts at or before an offset. -/
def lineIndexAt (lines : List Line) (offset : Nat) : Nat :=
  (lines.takeWhile fun line => line.start ≤ offset).length - 1

/-- How many characters end within the first `bytes` bytes. -/
def charsWithin : Nat → List Char → Nat
  | _, [] => 0
  | bytes, c :: cs =>
    if c.utf8Size ≤ bytes then charsWithin (bytes - c.utf8Size) cs + 1 else 0

/-- The column of an offset counts characters from one. -/
def Line.column (line : Line) (offset : Nat) : Nat :=
  charsWithin (offset - line.start) line.chars + 1

/-- The line as it is shown, without the line break and zero characters at its end. -/
def Line.shown (line : Line) : List Char :=
  (line.chars.reverse.dropWhile fun c => c == '\n' || c == '\r' || c == '\x00').reverse

end AlignPlan.Report
