import AlignPlan.FileTree

/-! Where files come from and go to. The program works on any disk: on a file tree held as a
value, or on the one the operating system keeps. -/
namespace AlignPlan

/-- What a disk is asked for. A directory is made only where its parent is there. -/
structure Disk (m : Type → Type) where
  read : String → m (Except FileError ByteArray)
  makeDirectory : String → m (Except FileError Unit)
  isDirectory : String → m Bool
  write : String → String → m (Except FileError Unit)

namespace Disk

variable {m : Type → Type} [Monad m]

/-- A directory that is there already is as good as a new one. -/
def acceptDirectory (disk : Disk m) (path : String) (e : FileError) :
    m (Except FileError Unit) := do
  if ← disk.isDirectory path then pure (.ok ()) else pure (.error e)

/-- Makes the first directory of a list; if that cannot be done for want of another, the rest
of the list is made before it is tried again. -/
def makeFirst (disk : Disk m) : List String → m (Except FileError Unit)
  | [] => pure (.ok ())
  | path :: outer => do
    match ← disk.makeDirectory path with
    | .ok () => pure (.ok ())
    | .error .notFound =>
      match ← disk.makeFirst outer with
      | .error e => pure (.error e)
      | .ok () =>
        match ← disk.makeDirectory path with
        | .ok () => pure (.ok ())
        | .error e => disk.acceptDirectory path e
    | .error e => disk.acceptDirectory path e

/-- Makes a directory and those it lies in. The empty path is the working directory. -/
def makeDirectories (disk : Disk m) (path : String) : m (Except FileError Unit) :=
  if path.isEmpty then pure (.ok ()) else disk.makeFirst (path :: outerPaths path)

end Disk

namespace FileTree

def change (next : FileTree → Except FileError FileTree) :
    StateM FileTree (Except FileError Unit) :=
  fun t =>
    match next t with
    | .ok t => (.ok (), t)
    | .error e => (.error e, t)

/-- The disk that a file tree is. -/
def disk : Disk (StateM FileTree) where
  read path := fun t => (t.read path, t)
  makeDirectory path := change fun t => t.makeDirectory path
  isDirectory path := fun t => (t.isDirectory path, t)
  write path text := change fun t => t.write path text.toUTF8

end FileTree

end AlignPlan
