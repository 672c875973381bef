/-! Control sequences of terminals, and texts without them. A sequence begins with the escape
character and is ended by a character of its kind, by a cancelling control or by the next
escape; one that is left open takes the rest of the text with it. -/
namespace AlignPlan.Text

/-- The sequence that a position in a text lies in. -/
inductive Sequence
  | none
  /-- The escape character alone, and with characters that select a set. -/
  | escape | selection
  /-- A control sequence proper: it moves the cursor, or sets a colour. -/
  | control
  /-- The head of a device control string. -/
  | device | deviceParameters | deviceSelection
  /-- Text for the device, which only a terminator ends. -/
  | opaqueText
  /-- A command to the operating system, such as a window title. -/
  | system
  deriving DecidableEq

def escapeChar : Char := '\x1b'

/-- Controls that end any sequence at once. -/
def isCancel (c : Char) : Bool := c == '\x18' || c == '\x1a'

/-- Controls that lay out a text and belong to it. -/
def isLayoutControl (c : Char) : Bool := c == '\t' || c == '\n' || c == '\x0c' || c == '\r'

/-- What a text without control sequences may hold. -/
def isShown (c : Char) : Bool := isLayoutControl c || (' ' ≤ c && c != '\x7f')

/-- The terminator of a string is a byte, which may be part of a longer character. -/
def endsString (c : Char) : Bool := (String.utf8EncodeChar c).contains 0x9c

namespace Sequence

/-- Where layout controls interrupt a sequence. -/
def yieldsToLayout : Sequence → Bool
  | .escape | .selection | .control => true
  | _ => false

/-- The sequence after a character of it that is neither an escape nor cancels. -/
def next (s : Sequence) (c : Char) : Sequence :=
  match s with
  | .none => .none
  | .escape =>
    if ' ' ≤ c && c ≤ '/' then .selection
    else if c == '[' then .control
    else if c == ']' then .system
    else if c == 'P' then .device
    else if c == 'X' || c == '^' || c == '_' then .opaqueText
    else if '0' ≤ c && c ≤ '~' then .none
    else .escape
  | .selection => if '0' ≤ c && c ≤ '~' then .none else .selection
  | .control => if '@' ≤ c && c ≤ '~' then .none else .control
  | .device | .deviceParameters | .deviceSelection =>
    if '@' ≤ c && c ≤ '~' then .opaqueText
    else if ' ' ≤ c && c ≤ '/' then .deviceSelection
    else if '0' ≤ c && c ≤ '?' then
      if s == .deviceSelection || (s == .deviceParameters && ';' < c) then .opaqueText
      else .deviceParameters
    else s
  | .opaqueText => if endsString c then .none else .opaqueText
  | .system => if c == '\x07' then .none else .system

end Sequence

/-- Reads one character. The answer says whether it is shown. A layout control within a
sequence interrupts it: what follows is shown up to the next control, where the sequence goes
on, unless a character beyond ASCII has ended it before. -/
def scan (s : Sequence) (shows : Bool) (c : Char) : Sequence × Bool :=
  if c == escapeChar then (.escape, false)
  else if isCancel c then (.none, false)
  else if shows || s == .none then
    if isShown c then (if c.toNat < 0x80 then s else .none, true) else (s, false)
  else if s.yieldsToLayout && isLayoutControl c then (s, true)
  else (s.next c, false)

def plainFrom (s : Sequence) (shows : Bool) : List Char → List Char
  | [] => []
  | c :: cs =>
    let (s, shows) := scan s shows c
    if shows then c :: plainFrom s shows cs else plainFrom s shows cs

/-- A text without control sequences and without controls other than those of layout. -/
def plain (text : String) : String := String.ofList (plainFrom .none false text.toList)

end AlignPlan.Text
