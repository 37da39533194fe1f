import Calculator.Evaluation

/-!
# Batches

Several expressions are evaluated one by one. Each result is a line of output, after a line with the
expression's tokens if they are asked for; each failure is a line of complaint. A failure concerns
its own expression only.
-/

namespace Calculator

structure Settings where
  listsTokens : Bool := false
  /-- The greatest length of an expression, in characters. -/
  maxLength : Nat := 4096
deriving DecidableEq

inductive Failure where
  | tooLong (length limit : Nat)
  /-- The expression has no tokens to list. -/
  | listing (error : LexicalError)
  | evaluation (error : Error)
deriving DecidableEq

def Failure.message : Failure → String
  | tooLong length limit => s!"Expression is {length} characters long; the limit is {limit}."
  | listing error => error.message
  | evaluation error => error.message

/-- What one expression comes to: lines of output, and its failure if it has no value. -/
structure Answer where
  lines : List String
  failure? : Option Failure
deriving DecidableEq

structure Report where
  failures : Nat
  output : String
  complaints : String
deriving DecidableEq

namespace Batch

def tokenLine (tokens : List Token) : String :=
  "tokens: [" ++ ", ".intercalate (tokens.map Token.describe) ++ "] (" ++ Token.text tokens ++ ")"

/-- The answer that an evaluation gives. -/
def result (expression : String) : Answer :=
  match (evaluate expression).outcome with
  | .ok value => ⟨[Event.plain value], none⟩
  | .error error => ⟨[], some (.evaluation error)⟩

/-- An expression that is too long is not read, and one without tokens is not evaluated if they are to
be listed. The line of tokens is written even if the evaluation fails. -/
def answer (settings : Settings) (expression : String) : Answer :=
  if settings.maxLength < expression.length then
    ⟨[], some (.tooLong expression.length settings.maxLength)⟩
  else if settings.listsTokens then
    match tokenize expression with
    | .ok tokens =>
      let answer := result expression
      { answer with lines := tokenLine tokens :: answer.lines }
    | .error error => ⟨[], some (.listing error)⟩
  else result expression

def text (lines : List String) : String := String.join (lines.map (· ++ "\n"))

def complaint (failure : Failure) : String := "error: " ++ failure.message

/-- The report with one more answer written. -/
def add (report : Report) (answer : Answer) : Report :=
  match answer.failure? with
  | none => { report with output := report.output ++ text answer.lines }
  | some failure =>
    { failures := report.failures + 1
      output := report.output ++ text answer.lines
      complaints := report.complaints ++ text [complaint failure] }

def report (settings : Settings) (expressions : List String) : Report :=
  expressions.foldl (fun report expression => add report (answer settings expression)) ⟨0, "", ""⟩

end Batch

end Calculator
