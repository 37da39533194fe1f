import Calculator.Script.WhiteSpace

/-!
# Scripts

A script is a single expression, or a listing with an expression on each line that is not blank.
-/

namespace Calculator

inductive Script where
  | single (text : String)
  | listing (text : String)
deriving DecidableEq

namespace Script

/-- A line without a carriage return at its end. -/
def dropFinalReturn (line : List Char) : List Char :=
  if line.getLast? = some '\r' then line.dropLast else line

/-- The lines of a text. A line feed ends a line, together with a carriage return right before it. A
last line without line feed is taken as it is, if it holds anything. -/
def lines (text : List Char) : List (List Char) :=
  if text.isEmpty then []
  else
    let line := text.takeWhile (· != '\n')
    match _hrest : text.dropWhile (· != '\n') with
    | [] => [line]
    | _ :: rest => dropFinalReturn line :: lines rest
termination_by text.length
decreasing_by
  have hle := (List.dropWhile_sublist (· != '\n') (l := text)).length_le
  rw [_hrest, List.length_cons] at hle
  omega

def expressions : Script → List String
  | single text => [text]
  | listing text =>
    ((lines text.toList).filter fun line => !line.all isWhiteSpace).map String.ofList

end Script

end Calculator
