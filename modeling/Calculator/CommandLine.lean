import Calculator.Batch
import Calculator.Script

/-!
# The command line

The arguments give one operand, an expression or the path of a listing of expressions, and the settings
for it. How they are read is not laid down here: a reader of arguments is a parameter of `run`. It may
also end the run by itself, with a text of help, a version or a complaint about the arguments.
-/

namespace Calculator

/-- What the arguments say. -/
structure Arguments extends Settings where
  fromFile : Bool := false
  /-- An expression, or the path of a listing. -/
  contents : String
deriving DecidableEq

inductive ReadFailure where
  | notFound
  | isDirectory
  | invalidText
  | other (reason : String)
deriving DecidableEq

def ReadFailure.message : ReadFailure → String
  | notFound => "No such file or directory (os error 2)"
  | isDirectory => "Is a directory (os error 21)"
  | invalidText => "stream did not contain valid UTF-8"
  | other reason => reason

structure Outcome where
  exitCode : Nat
  output : String
  complaints : String
deriving DecidableEq

namespace Outcome

def ofReadFailure (path : String) (failure : ReadFailure) : Outcome where
  exitCode := 1
  output := ""
  complaints := s!"Failed to read the input file '{path}': {failure.message}\n"

/-- The exit code tells whether all expressions have values. -/
def ofReport (report : Report) : Outcome where
  exitCode := if report.failures = 0 then 0 else 1
  output := report.output
  complaints := report.complaints

end Outcome

variable {m : Type → Type} [Monad m]

/-- Does what the arguments say; files are read by `readFile`. -/
def Arguments.run (readFile : String → m (Except ReadFailure String)) (arguments : Arguments) :
    m Outcome := do
  let report (script : Script) : Outcome :=
    Outcome.ofReport (Batch.report arguments.toSettings script.expressions)
  if arguments.fromFile then
    match ← readFile arguments.contents with
    | .ok text => return report (.listing text)
    | .error failure => return Outcome.ofReadFailure arguments.contents failure
  else return report (.single arguments.contents)

/-- Runs the program. Where the reader of arguments gives an outcome, that is the outcome of the run. -/
def run (readArguments : List String → Except Outcome Arguments)
    (readFile : String → m (Except ReadFailure String)) (arguments : List String) : m Outcome :=
  match readArguments arguments with
  | .ok arguments => arguments.run readFile
  | .error outcome => return outcome

end Calculator
