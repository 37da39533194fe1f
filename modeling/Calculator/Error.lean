/-!
# Errors

Why a text is no list of tokens, and why a list of tokens has no value.
-/

namespace Calculator

/-- Positions count characters from the start of the text. -/
inductive LexicalError where
  /-- A character that belongs to no token, or a point that begins no number. -/
  | unknownCharacter (character : Char) (position : Nat)
  /-- Digits and points that are no number, with their sign and up to the offence. -/
  | malformedNumber (fragment : String) (position : Nat)
deriving DecidableEq

namespace LexicalError

def position : LexicalError → Nat
  | unknownCharacter _ position => position
  | malformedNumber _ position => position

def message : LexicalError → String
  | unknownCharacter character position => s!"Unknown character '{character}' at position {position}."
  | malformedNumber fragment position =>
    s!"Invalid number format near '{fragment}' at position {position}."

end LexicalError

inductive Error where
  | lexical (error : LexicalError)
  /-- A parenthesis without its partner. -/
  | unmatched (parenthesis : Char)
  /-- Numbers and operators that do not take turns, beginning and ending with a number. -/
  | malformed
  | divisionByZero
deriving DecidableEq

namespace Error

def message : Error → String
  | lexical error => error.message
  | unmatched parenthesis =>
    if parenthesis = '(' then "Missing closing parantheses: '(' has no matching ')'."
    else s!"UnmatchedParen: '{parenthesis}' has no matching '('."
  | malformed => "Malformed expression."
  | divisionByZero => "Division by 0 is undefined."

/-- The message of the error that caused this one. -/
def causeMessage? : Error → Option String
  | lexical error => some error.message
  | _ => none

end Error

end Calculator
