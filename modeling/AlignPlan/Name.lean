import AlignPlan.Text.Quoted

/-! Names of states and activities. Both become parts of planning objects, so they are kept to
ASCII letters, digits, `_` and `-`; an activity is an object of its own and obeys the rules of
planning names as well. -/
namespace AlignPlan.Name

def isNameChar (c : Char) : Bool := c.isAlphanum || c == '_' || c == '-'

/-- Words of the planning language that cannot name an object. -/
def reservedWords : List String :=
  ["and", "or", "not", "imply", "exists", "forall", "when", "either", "object", "define",
   "domain", "problem", "increase", "decrease"]

/-- The planning language does not tell letter case apart. -/
def caseless (text : String) : String := text.map Char.toLower

def isReserved (text : String) : Bool := reservedWords.contains (caseless text)

inductive Defect
  | empty
  | character (c : Char)
  | firstCharacter
  | reserved (word : String)
  deriving DecidableEq

def Defect.message : Defect → String
  | .empty => "names must not be empty"
  | .character c =>
    "unexpected character " ++ Text.quoteChar c ++
      ", only ASCII letters, digits, `_` and `-` are allowed"
  | .firstCharacter => "activity names have to start with a letter"
  | .reserved word => "`" ++ word ++ "` is a reserved word in PDDL"

/-- What keeps a text from being a state name; the first offending character counts. -/
def defect? (text : String) : Option Defect :=
  if text.isEmpty then some .empty
  else (text.toList.find? fun c => !isNameChar c).map .character

/-- What keeps a text from being an activity name. -/
def activityDefect? (text : String) : Option Defect :=
  (defect? text).or <|
    if !(text.toList.head?.any Char.isAlpha) then some .firstCharacter
    else if isReserved text then some (.reserved text)
    else none

end AlignPlan.Name
