/-! A tree of files and directories, as far as a program that reads files, makes directories and
writes files can tell. Places are lists of names below the working directory; a place that
starts with `/` lies below the root instead, and one that starts with `..` above the working
directory. -/
namespace AlignPlan

abbrev Place := List String

inductive Entry
  | directory
  | file (bytes : ByteArray)

/-- Why a disk refuses something. -/
inductive FileError
  | notFound | exists | notDirectory | isDirectory | nameTooLong
  /-- A path with a zero character is never looked up. -/
  | zeroCharacter
  /-- Anything else, in the words of the operating system. -/
  | other (message : String)
  deriving DecidableEq

def FileError.message : FileError → String
  | .notFound => "No such file or directory (os error 2)"
  | .exists => "File exists (os error 17)"
  | .notDirectory => "Not a directory (os error 20)"
  | .isDirectory => "Is a directory (os error 21)"
  | .nameTooLong => "File name too long (os error 36)"
  | .zeroCharacter => "file name contained an unexpected NUL byte"
  | .other message => message

/-- The most bytes a name and a path may have. -/
def nameLimit : Nat := 255

def pathLimit : Nat := 4095

/-- What is wrong with a path wherever it may lead. -/
def pathError? (path : String) : Option FileError :=
  if path.toList.contains '\x00' then some .zeroCharacter
  else if path.isEmpty then some .notFound
  else if pathLimit < path.utf8ByteSize then some .nameTooLong
  else none

/-- The texts before, between and after the slashes of a text. -/
def betweenSlashes : List Char → List (List Char)
  | [] => [[]]
  | c :: cs =>
    if c == '/' then [] :: betweenSlashes cs
    else
      match betweenSlashes cs with
      | [] => [[c]]
      | name :: names => (c :: name) :: names

def pathNames (path : String) : List String := (betweenSlashes path.toList).map String.ofList

def isRooted (path : String) : Bool := path.toList.head? == some '/'

/-- The names of a path, and the place they are followed from. -/
def splitPath (path : String) : Place × List String :=
  (if isRooted path then ["/"] else [], pathNames path)

/-- Names that stay where they are. -/
def isIdle (name : String) : Bool := name == "" || name == "."

/-- The paths that a path lies in, the longest first; idle names are left out of them. -/
def outerPaths (path : String) : List String :=
  let names := (pathNames path).filter fun name => !isIdle name
  let root := if isRooted path then "/" else ""
  ((List.range names.length).drop 1).reverse.map fun count =>
    root ++ "/".intercalate (names.take count)

/-- An entry counts only if it is the first of its place. -/
structure FileTree where
  entries : List (Place × Entry)

namespace FileTree

def empty : FileTree := ⟨[]⟩

/-- Directories that are there from the beginning: the working directory, those above it and
the root. -/
def isGiven : Place → Bool
  | [] => true
  | ["/"] => true
  | place => place.all (· == "..")

def entry? (t : FileTree) (place : Place) : Option Entry :=
  if isGiven place then some .directory else t.entries.lookup place

/-- Replaces what was at a place. -/
def insert (t : FileTree) (place : Place) (e : Entry) : FileTree :=
  ⟨if (t.entries.lookup place).isSome then
    t.entries.map fun (p, old) => if p == place then (p, e) else (p, old)
  else t.entries ++ [(place, e)]⟩

def parent (place : Place) : Place :=
  if place == ["/"] then place
  else if place.all (· == "..") then place ++ [".."]
  else place.dropLast

/-- Follows names from a place. Every name but the last has to lead to a directory. -/
def follow (t : FileTree) : Place → List String → Except FileError Place
  | place, [] => .ok place
  | place, name :: names =>
    match t.entry? place with
    | none => .error .notFound
    | some (.file _) => .error .notDirectory
    | some .directory =>
      if nameLimit < name.utf8ByteSize then .error .nameTooLong
      else if isIdle name then t.follow place names
      else if name == ".." then t.follow (parent place) names
      else t.follow (place ++ [name]) names

/-- The place a path leads to; there may be nothing there yet. -/
def resolve (t : FileTree) (path : String) : Except FileError Place :=
  match pathError? path with
  | some e => .error e
  | none =>
    let (place, names) := splitPath path
    t.follow place names

def read (t : FileTree) (path : String) : Except FileError ByteArray :=
  match t.resolve path with
  | .error e => .error e
  | .ok place =>
    match t.entry? place with
    | none => .error .notFound
    | some .directory => .error .isDirectory
    | some (.file bytes) => .ok bytes

/-- Puts a file where a path leads, in place of an older file. -/
def write (t : FileTree) (path : String) (bytes : ByteArray) : Except FileError FileTree :=
  match t.resolve path with
  | .error e => .error e
  | .ok place =>
    match t.entry? place with
    | some .directory => .error .isDirectory
    | _ => .ok (t.insert place (.file bytes))

def dropTrailing (names : List String) : List String :=
  (names.reverse.dropWhile fun name => name == "").reverse

/-- Makes one directory, whose parent is there. Slashes at the end of its path do not count. -/
def makeDirectory (t : FileTree) (path : String) : Except FileError FileTree :=
  match pathError? path with
  | some e => .error e
  | none =>
    let (start, names) := splitPath path
    match t.follow start (dropTrailing names) with
    | .error e => .error e
    | .ok place =>
      if (t.entry? place).isSome then .error .exists else .ok (t.insert place .directory)

def isDirectory (t : FileTree) (path : String) : Bool :=
  match t.resolve path with
  | .error _ => false
  | .ok place =>
    match t.entry? place with
    | some .directory => true
    | _ => false

/-- The files below the working directory, by path. -/
def files (t : FileTree) : List (String × ByteArray) :=
  t.entries.filterMap fun (place, e) =>
    match place, e with
    | name :: _, .file bytes =>
      if name == "/" || name == ".." then none else some ("/".intercalate place, bytes)
    | _, _ => none

end FileTree

end AlignPlan
