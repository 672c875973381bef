import AlignPlan.CommandLine

/-! The program on the disk of the operating system. -/
namespace AlignPlan

def fileError : IO.Error → FileError
  | .noFileOrDirectory .. => .notFound
  | .alreadyExists .. => .exists
  | .inappropriateType _ 21 _ => .isDirectory
  | .inappropriateType .. => .notDirectory
  | .invalidArgument _ code details =>
    if code == 36 || code + 36 == 0 then .nameTooLong else .other details
  | e => .other (toString e)

def attempt {α : Type} (path : String) (action : IO α) : IO (Except FileError α) := do
  match pathError? path with
  | some e => pure (.error e)
  | none =>
    match ← action.toBaseIO with
    | .ok value => pure (.ok value)
    | .error e => pure (.error (fileError e))

def systemDisk : Disk IO where
  read path := attempt path (IO.FS.readBinFile path)
  makeDirectory path := attempt path (IO.FS.createDir path)
  isDirectory path := do
    match ← attempt path (IO.FS.readBinFile (path ++ "/.")) with
    | .error .isDirectory => pure true
    | _ => pure false
  write path text := attempt path (IO.FS.writeFile path text)

end AlignPlan

def main (arguments : List String) : IO UInt32 := do
  let ending ← AlignPlan.CommandLine.run AlignPlan.systemDisk arguments
  IO.print ending.output
  IO.eprint ending.errors
  if ending.code = 2 then IO.eprintln ""
  pure ending.code.toUInt32
