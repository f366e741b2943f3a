import Cookery.CommandLine.Report

/-!
# The command line tool

Reads the recipe file that the arguments name, and prints the report.
-/

namespace Cookery

/-- the bytes of a file, or why they could not be read -/
def readFile (path : String) : IO (Except FileFault ByteArray) := do
  try
    return .ok (← IO.FS.readBinFile path)
  catch
    | .noFileOrDirectory _ _ _ => return .error .notFound
    | .inappropriateType _ _ _ => return .error .isDirectory
    | e => return .error (.worded (toString e))

/-- print a report, with its events if they are wanted -/
def Report.print (r : Report) (verbose : Bool) : IO UInt32 := do
  if verbose then
    for e in r.events do
      if e.level ≠ .trace then IO.eprintln e.line
  IO.print r.output
  IO.eprint r.complaint
  return r.exitCode.toUInt32

end Cookery

def main (args : List String) : IO UInt32 := do
  match Cookery.Invocation.ofArgs args with
  | .command verbose command =>
    let content ← Cookery.readFile command.recipe
    (command.report content).print verbose
  | invocation => (invocation.report fun _ => .error .notFound).print false
