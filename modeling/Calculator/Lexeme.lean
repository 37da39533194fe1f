import Calculator.Token

/-!
# Lexemes

A text is made of blanks and lexemes: single symbols, and literals, which are runs of digits and
points with their sign. `split` takes the first lexeme off a text and `read` says which token it is.
-/

namespace Calculator

/-- The characters that may stand between lexemes: space, tab, carriage return, line feed and form
feed. -/
def isBlank (c : Char) : Bool :=
  c == ' ' || c == '\t' || c == '\r' || c == '\n' || c == '\x0c'

def isNumeric (c : Char) : Bool := c.isDigit || c == '.'

inductive Lexeme where
  | symbol (c : Char)
  | literal (sign? : Option Sign) (run : List Char)
deriving DecidableEq

namespace Lexeme

def chars : Lexeme → List Char
  | symbol c => [c]
  | literal sign? run => (sign?.map Sign.symbol).toList ++ run

/-- The first lexeme of the text `c :: rest`, and the text after it. A run goes as far as it can. A
sign belongs to the run right after it if `signed`, that is if the token before it admits a sign. -/
def split (signed : Bool) (c : Char) (rest : List Char) : Lexeme × List Char :=
  if isNumeric c then (literal none (c :: rest.takeWhile isNumeric), rest.dropWhile isNumeric)
  else
    match Sign.ofSymbol? c with
    | some sign =>
      if signed && rest.head?.any isNumeric then
        (literal (some sign) (rest.takeWhile isNumeric), rest.dropWhile isNumeric)
      else (symbol c, rest)
    | none => (symbol c, rest)

def beginsWithBarePoint : List Char → Bool
  | '.' :: rest => !rest.head?.any Char.isDigit
  | _ => false

def throughSecondPoint? (run : List Char) : Option (List Char) :=
  let whole := run.takeWhile (· != '.')
  let fraction := (run.dropWhile (· != '.')).drop 1
  if fraction.contains '.' then some (whole ++ '.' :: fraction.takeWhile (· != '.') ++ ['.'])
  else none

/-- The token of the lexeme at `position`. A bare point is an unknown character, unless a sign makes
it part of a literal. -/
def read (position : Nat) : Lexeme → Except LexicalError Token
  | symbol c =>
    match Token.ofSymbol? c with
    | some token => .ok token
    | none => .error (.unknownCharacter c position)
  | literal sign? run =>
    if sign?.isNone && beginsWithBarePoint run then .error (.unknownCharacter '.' position)
    else
      match throughSecondPoint? run with
      | some part => .error (.malformedNumber (String.ofList (literal sign? part).chars) position)
      | none =>
        if run.any Char.isDigit then
          .ok (.number ((sign?.getD .plus).apply (Number.ofNumeral run)))
        else .error (.malformedNumber (String.ofList (literal sign? run).chars) position)

/-! ## Laws -/

theorem chars_split_append (signed : Bool) (c : Char) (rest : List Char) :
    (split signed c rest).1.chars ++ (split signed c rest).2 = c :: rest := by
  unfold split
  split
  · simp [chars]
  · split
    · rename_i sign hsign
      have hc := Sign.ofSymbol?_eq_some_iff.1 hsign
      split <;> simp [chars, hc]
    · simp [chars]

theorem length_split_lt (signed : Bool) (c : Char) (rest : List Char) :
    (split signed c rest).2.length < (c :: rest).length := by
  have hdrop := (List.dropWhile_sublist isNumeric (l := rest)).length_le
  unfold split
  simp only [List.length_cons]
  grind

end Lexeme

end Calculator
