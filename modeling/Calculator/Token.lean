import Calculator.Operator
import Calculator.Number.Layout

/-!
# Tokens

Tokens are written one after the other without separators, or described by name in a list.
-/

namespace Calculator

inductive Token where
  | number (value : Number)
  | operator (op : Operator)
  | opening
  | closing
deriving DecidableEq

namespace Token

def isOpening : Token → Bool
  | opening => true
  | _ => false

def isClosing : Token → Bool
  | closing => true
  | _ => false

def isNumber : Token → Bool
  | number _ => true
  | _ => false

def operator? : Token → Option Operator
  | operator op => some op
  | _ => none

def admitsSign : Token → Bool
  | operator _ | opening => true
  | number _ | closing => false

/-- A sign may also begin a text. -/
def signMayFollow (previous : Option Token) : Bool := previous.all admitsSign

def ofSymbol? : Char → Option Token
  | '(' => some opening
  | ')' => some closing
  | c => (Operator.ofSymbol? c).map operator

def spell : Token → List Char
  | number value => Layout.plain.number value
  | operator op => [op.symbol]
  | opening => ['(']
  | closing => [')']

def text (tokens : List Token) : String := String.ofList (tokens.flatMap spell)

def describe : Token → String
  | number value => "Number(" ++ String.ofList (Layout.listing.number value) ++ ")"
  | operator .add => "Plus"
  | operator .sub => "Minus"
  | operator .mul => "Multiply"
  | operator .div => "Divide"
  | opening => "LeftParen"
  | closing => "RightParen"

end Token

end Calculator
