import Calculator.Error
import Calculator.Number

/-!
# Operators and signs

The four operators on numbers, and the two signs a number can have. The symbols of addition and
subtraction are also those of the signs.
-/

namespace Calculator

inductive Operator where
  | add
  | sub
  | mul
  | div
deriving DecidableEq

inductive Sign where
  | plus
  | minus
deriving DecidableEq

namespace Operator

def symbol : Operator → Char
  | add => '+'
  | sub => '-'
  | mul => '*'
  | div => '/'

def ofSymbol? : Char → Option Operator
  | '+' => some add
  | '-' => some sub
  | '*' => some mul
  | '/' => some div
  | _ => none

/-- Multiplication and division bind tighter than the others. -/
def isMultiplicative : Operator → Bool
  | mul | div => true
  | add | sub => false

/-- Division by either zero is an error. Every other result is a number, be it infinite or NaN. -/
def apply : Operator → Number → Number → Except Error Number
  | add, left, right => .ok (left + right)
  | sub, left, right => .ok (left - right)
  | mul, left, right => .ok (left * right)
  | div, left, right => if right.isZero then .error .divisionByZero else .ok (left / right)

/-- The sign that an operator's symbol stands for before a number. -/
def sign? : Operator → Option Sign
  | add => some .plus
  | sub => some .minus
  | mul | div => none

theorem ofSymbol?_eq_some_iff {c : Char} {op : Operator} :
    ofSymbol? c = some op ↔ op.symbol = c := by
  constructor
  · intro h
    unfold ofSymbol? at h
    split at h <;> cases h <;> rfl
  · rintro rfl
    cases op <;> rfl

theorem isMultiplicative_iff {op : Operator} : op.isMultiplicative = true ↔ op = mul ∨ op = div := by
  cases op <;> decide

theorem isMultiplicative_eq_false_iff {op : Operator} :
    op.isMultiplicative = false ↔ op = add ∨ op = sub := by
  cases op <;> decide

end Operator

namespace Sign

def operator : Sign → Operator
  | plus => .add
  | minus => .sub

def symbol (sign : Sign) : Char := sign.operator.symbol

def ofSymbol? (c : Char) : Option Sign := (Operator.ofSymbol? c).bind Operator.sign?

def apply : Sign → Number → Number
  | plus, x => x
  | minus, x => x.negate

theorem sign?_operator (sign : Sign) : sign.operator.sign? = some sign := by
  cases sign <;> rfl

theorem symbol_eq (sign : Sign) : sign.symbol = '+' ∨ sign.symbol = '-' := by
  cases sign <;> decide

theorem operator_of_sign? {op : Operator} {sign : Sign} (h : op.sign? = some sign) :
    sign.operator = op := by
  cases op <;> cases h <;> rfl

theorem ofSymbol?_eq_some_iff {c : Char} {sign : Sign} :
    ofSymbol? c = some sign ↔ sign.symbol = c := by
  constructor
  · intro h
    obtain ⟨op, hop, hsign⟩ := Option.bind_eq_some_iff.1 h
    rw [symbol, operator_of_sign? hsign, Operator.ofSymbol?_eq_some_iff.1 hop]
  · rintro rfl
    cases sign <;> rfl

theorem operator_injective {sign other : Sign} (h : sign.operator = other.operator) :
    sign = other := by
  have hsign := sign.sign?_operator
  rw [h, other.sign?_operator] at hsign
  cases hsign
  rfl

theorem symbol_injective {sign other : Sign} (h : sign.symbol = other.symbol) : sign = other := by
  have hsign : ofSymbol? other.symbol = some sign := ofSymbol?_eq_some_iff.2 h
  have hother : ofSymbol? other.symbol = some other := ofSymbol?_eq_some_iff.2 rfl
  exact Option.some.inj (hsign.symm.trans hother)

end Sign

end Calculator
