import CallAudit.CommandLine.Run

/-!
# The program

The command over the files of the machine.
-/

namespace CallAudit

/-- The fault that a failed access reports. -/
def FileFault.ofIO : IO.Error → FileFault
  | .noFileOrDirectory .. => .notFound
  | .noSuchThing .. => .notFound
  | e => .other e.toString

/-- Access to the files of the machine. -/
def FileAccess.machine : FileAccess IO where
  exists? path := do
    if (FileFault.ofPath? path).isSome then return false
    try
      let _ ← IO.FS.Handle.mk path .read
      return true
    catch e => return FileFault.ofIO e != .notFound
  readBytes path := do
    if let some fault := FileFault.ofPath? path then return .error fault
    try return .ok (← IO.FS.readBinFile path)
    catch e => return .error (.ofIO e)
  write path content := do
    if let some fault := FileFault.ofPath? path then return .error fault
    try
      IO.FS.writeFile path content
      return .ok ()
    catch e => return .error (.ofIO e)

/-- Says how a run ended, and gives the exit status. -/
def CommandLine.Outcome.tell : CommandLine.Outcome → IO UInt32
  | .usage => do
      IO.eprintln "Usage: trimtrace [OPTIONS] <FACTS>"
      return 2
  | .failed t => do
      IO.eprintln ("Error: " ++ t.message)
      return 2
  | .finished status output errors => do
      IO.print output
      IO.eprint errors
      return status.toUInt32

end CallAudit

/-- Runs the command on the arguments of the process. -/
def main (args : List String) : IO UInt32 := do
  let outcome ← CallAudit.CommandLine.run CallAudit.FileAccess.machine args
  outcome.tell
