import ScriptCheck.CommandLine

/-!
# The command

Runs a command line against the file system: the only part of the program that has effects.
-/

namespace ScriptCheck

/-- The number of the error that a folder is read like a file. -/
def folderCode : UInt32 := 21

/-- The fault that a failure to read the file at a path amounts to. -/
def faultOfError (path : String) : IO.Error → Source.Fault
  | .inappropriateType _ code _ => if code = folderCode then .folder path else .notFolder path
  | .invalidArgument .. => .nameTooLong path
  | _ => .missing path

/-- The bytes of the file at a path. -/
def readBytes (path : String) : IO (Except Source.Fault (List Nat)) := do
  if path.contains '\x00' then return .error .nullInName
  try
    let bytes ← IO.FS.readBinFile path
    return .ok (bytes.toList.map (·.toNat))
  catch e => return .error (faultOfError path e)

/-- The file that a command line asks to be read, as far as it can be. -/
def readRequested (arguments : List String) : IO (Except Source.Fault (List Nat)) := do
  match CommandLine.read arguments with
  | .ok (.check job _) =>
    if job.isText || !job.source.endsWith Source.suffix then return .ok []
    else readBytes job.source
  | _ => return .ok []

end ScriptCheck

/-- Run the command with the given arguments. -/
def main (arguments : List String) : IO UInt32 := do
  let bytes ← ScriptCheck.readRequested arguments
  let completion := ScriptCheck.CommandLine.run arguments fun _ => bytes
  IO.print completion.output
  IO.eprint completion.remarks
  return completion.status.toUInt32
