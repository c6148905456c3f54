import WasmTyping.Command.Run

/-!
# The program

The command on the files and streams of the operating system.
-/

namespace WasmTyping.Command

/-- The number of an error of the operating system, which may come negated. -/
def errorNumber (code : UInt32) : UInt32 := min code (0 - code)

def reason : IO.Error → String
  | .noFileOrDirectory .. => DiskError.notFound.message
  | .inappropriateType _ code _ =>
    if errorNumber code = 20 then DiskError.notFolder.message else DiskError.isFolder.message
  | .invalidArgument _ code details =>
    if errorNumber code = 36 then DiskError.nameTooLong.message else details
  | e => toString e

def Host.actual : Host IO where
  readStdin := do (← IO.getStdin).readToEnd
  readFile path := do
    try return .ok (← IO.FS.readFile path)
    catch e => return .error (reason e)
  create path := do
    try
      IO.FS.writeFile path ""
      return .ok fun content => IO.FS.writeFile path content
    catch e => return .error (reason e)
  print text := IO.print text
  complain text := IO.eprint text

end WasmTyping.Command

open WasmTyping.Command in
def main (arguments : List String) : IO UInt32 := do
  return (← execute arguments Host.actual).toUInt32
