import Calculator.CommandLine

/-!
# The program

Reads files, writes to the standard streams and exits; all else is `Calculator.run`.
-/

namespace Calculator

def readText (path : String) : IO (Except ReadFailure String) := do
  try
    let bytes ← IO.FS.readBinFile path
    match String.fromUTF8? bytes with
    | some text => return .ok text
    | none => return .error .invalidText
  catch
    | .noFileOrDirectory .. => return .error .notFound
    | .inappropriateType .. => return .error .isDirectory
    | error => return .error (.other (toString error))

def program (readArguments : List String → Except Outcome Arguments) (arguments : List String) :
    IO UInt32 := do
  let outcome ← run readArguments readText arguments
  (← IO.getStdout).putStr outcome.output
  (← IO.getStderr).putStr outcome.complaints
  return outcome.exitCode.toUInt32

end Calculator
