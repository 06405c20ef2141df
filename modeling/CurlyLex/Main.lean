import CurlyLex.Command.Program

/-!
# The executable

Reads what the request needs from the disk and from the standard input, and writes its answer.
All that is decided is decided in `Request.run`.
-/

namespace CurlyLex

/-- the cause of a failure that the system reports -/
def faultOf : IO.Error → Fault
  | .noFileOrDirectory .. => .notFound
  | .permissionDenied .. => .permissionDenied
  | .inappropriateType _ 20 _ => .notDirectory
  | .inappropriateType _ 21 _ => .isDirectory
  | .invalidArgument _ 36 _ => .nameTooLong
  | e => .other (toString e)

/-- reads an open file to its end -/
def readHandle (handle : IO.FS.Handle) : IO Access := do
  try
    let bytes ← handle.readBinToEnd
    return .bytes bytes.toList
  catch e => return .unread (faultOf e)

/-- opens and reads one path -/
def accessPath (path : Text) : IO Access := do
  if path.contains (Char.ofNat 0) then
    return .unopened .zeroInPath
  try
    let handle ← IO.FS.Handle.mk (String.ofList path) .read
    readHandle handle
  catch e => return .unopened (faultOf e)

/-- the files at the given paths -/
def readFiles (paths : List Text) : IO Files := do
  let found ← paths.mapM fun path => return (path, ← accessPath path)
  return fun path =>
    match found.lookup path with
    | some access => access
    | none => .unopened .notFound

def readStandardInput : IO (List Event) := do
  let input ← IO.getStdin
  try
    let bytes ← input.readBinToEnd
    return [.chunk bytes.toList]
  catch e => return [.broken (faultOf e).message]

/-- runs the program with the given arguments -/
def execute (args : List String) : IO UInt32 := do
  let request := Request.ofArgs (args.map String.toList)
  let files ← readFiles request.paths
  let input ← if request.readsStandardInput then readStandardInput else pure []
  let exit := request.run input files
  let out ← IO.getStdout
  out.write ⟨exit.out.toArray⟩
  out.flush
  let err ← IO.getStderr
  err.write ⟨exit.err.toArray⟩
  err.flush
  return exit.code.toUInt32

end CurlyLex

def main (args : List String) : IO UInt32 := CurlyLex.execute args
