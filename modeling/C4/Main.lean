import C4.CommandLine.Program

/-!
# Main
-/
namespace C4.CommandLine

/-- The words of the operating system. Some of its calls give their numbers with a minus sign. -/
def reason : IO.Error → String
  | .noFileOrDirectory _ _ _ => noSuchFile
  | .noSuchThing _ code _ => if code = 6 || code = -6 then noSuchDevice else noSuchFile
  | .permissionDenied _ _ _ => permissionDenied
  | .inappropriateType _ code _ =>
    if code = 20 || code = -20 then notADirectory else isADirectory
  | e@(.invalidArgument _ code _) =>
    if code = 36 || code = -36 then nameTooLong else toString e
  | e@(.resourceExhausted _ code _) =>
    if code = 28 || code = -28 then noSpace else toString e
  | e => toString e

def attempt {α ε : Type} (wrap : String → ε) (action : IO α) : IO (Except ε α) := do
  try return .ok (← action)
  catch e => return .error (wrap (reason e))

def readFile (path : String) : IO (Except String ByteArray) :=
  attempt id (IO.FS.readBinFile path)

def writeFile (path content : String) : IO (Except WriteFailure Unit) := do
  match ← attempt .create (IO.FS.Handle.mk path .write) with
  | .error e => return .error e
  | .ok file =>
    attempt .write do
      file.putStr content
      file.flush

def Program.run : Program → IO Verdict
  | .done verdict => return verdict
  | .read path next => do (next (← readFile path)).run
  | .write path content next => do (next (← writeFile path content)).run

end C4.CommandLine

open C4.CommandLine in
def main (arguments : List String) : IO UInt32 := do
  let v ← (program arguments).run
  v.notes.forM fun r => IO.eprintln r.text
  IO.eprint v.complaint
  IO.print v.output
  return UInt32.ofNat v.code
