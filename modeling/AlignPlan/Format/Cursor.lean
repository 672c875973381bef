/-! Reading positions in a text: the text that is left and the byte offset where it begins. -/
namespace AlignPlan.Format

@[ext] structure Cursor where
  offset : Nat
  rest : List Char

/-- A value with the byte offsets of the text it was read from. -/
structure Located (α : Type) where
  value : α
  start : Nat
  stop : Nat
  deriving DecidableEq

/-- The length of a text in UTF-8. -/
def byteLength : List Char → Nat
  | [] => 0
  | c :: cs => c.utf8Size + byteLength cs

namespace Cursor

def ofString (text : String) : Cursor := ⟨0, text.toList⟩

def drop? : List Char → Cursor → Option Cursor
  | [], c => some c
  | _ :: _, ⟨_, []⟩ => none
  | l :: ls, ⟨offset, d :: rest⟩ =>
    if l = d then drop? ls ⟨offset + d.utf8Size, rest⟩ else none

def isLineBreak (c : Char) : Bool := c == '\n' || c == '\r'

def isSpace (c : Char) : Bool := c == ' ' || c == '\t' || isLineBreak c

/-- Skips white space and comments; a comment runs from `//` to the end of its line. -/
def skipFrom (inComment : Bool) (offset : Nat) : List Char → Cursor
  | [] => ⟨offset, []⟩
  | c :: rest =>
    if isLineBreak c then skipFrom false (offset + c.utf8Size) rest
    else if inComment then skipFrom true (offset + c.utf8Size) rest
    else if isSpace c then skipFrom false (offset + c.utf8Size) rest
    else
      match c, rest with
      | '/', '/' :: more => skipFrom true (offset + 2) more
      | _, _ => ⟨offset, c :: rest⟩

def skip (c : Cursor) : Cursor := skipFrom false c.offset c.rest

theorem length_drop? {text : List Char} {c c' : Cursor} (h : c.drop? text = some c') :
    c'.rest.length + text.length = c.rest.length := by
  fun_induction drop? text c with
  | case1 c => simp_all
  | case2 => simp at h
  | case3 ls offset d rest ih =>
    have : c'.rest.length + ls.length = rest.length := ih h
    simp only [List.length_cons]
    omega
  | case4 => simp at h

theorem length_skipFrom (inComment : Bool) (offset : Nat) (rest : List Char) :
    (skipFrom inComment offset rest).rest.length ≤ rest.length := by
  fun_induction skipFrom inComment offset rest <;> simp_all <;> omega

theorem length_skip (c : Cursor) : c.skip.rest.length ≤ c.rest.length :=
  length_skipFrom false c.offset c.rest

end Cursor

end AlignPlan.Format
