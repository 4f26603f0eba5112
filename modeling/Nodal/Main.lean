import Nodal.Command
/-!
# The program

Reads the file named on the command line, runs the command on it, and prints the report.
-/

namespace Nodal

def fileBytes (path : String) : IO (Option ByteArray) := do
  try
    return some (← IO.FS.readBinFile path)
  catch _ =>
    return none

/-- Prints a report and ends with its exit code. -/
def Report.print (r : Report) : IO UInt32 := do
  IO.print r.out
  IO.eprint r.err
  return r.code.toUInt32

end Nodal

def main (args : List String) : IO UInt32 :=
  match Nodal.Request.ofArguments args with
  | .error e => do
    IO.eprintln ("error: " ++ e.message)
    return 2
  | .ok r => do
    (r.run (← Nodal.fileBytes r.path)).print
