import Calculator.Number.Shortest

/-!
# Written numbers

A number is written with its shortest digits. A layout says which numbers are written with an
exponent and what marks a whole number. Results have the plain layout, without exponents; lists of
tokens have the listing layout, whose numbers are recognisable as such and short.
-/

namespace Calculator

structure Layout where
  /-- Whether a number is written without an exponent, by the power of ten of its first digit. -/
  isPositional : Int → Bool
  /-- What follows the digits of a whole number. -/
  wholeMark : List Char

namespace Layout

def plain : Layout where
  isPositional _ := true
  wholeMark := []

def listing : Layout where
  isPositional power := -4 ≤ power && power < 16
  wholeMark := ['.', '0']

/-- Digits with the point where it belongs, and zeros to reach it. -/
def positional (wholeMark : List Char) (d : Decimal) : List Char :=
  let digits := Nat.toDigits 10 d.digits
  let point := digits.length + d.exponent
  if point ≤ 0 then '0' :: '.' :: (List.replicate (-point).toNat '0' ++ digits)
  else if 0 ≤ d.exponent then digits ++ List.replicate d.exponent.toNat '0' ++ wholeMark
  else digits.take point.toNat ++ '.' :: digits.drop point.toNat

def integer (n : Int) : List Char :=
  if n < 0 then '-' :: Nat.toDigits 10 n.natAbs else Nat.toDigits 10 n.natAbs

/-- The point after the first digit, and the power of ten of that digit. -/
def exponential (d : Decimal) : List Char :=
  let digits := Nat.toDigits 10 d.digits
  let fraction := if digits.length = 1 then [] else '.' :: digits.drop 1
  digits.take 1 ++ fraction ++ 'e' :: integer (digits.length + d.exponent - 1)

def decimal (layout : Layout) (d : Decimal) : List Char :=
  if layout.isPositional ((Nat.toDigits 10 d.digits).length + d.exponent - 1) then
    positional layout.wholeMark d
  else exponential d

/-- NaN is written without its sign. -/
def number (layout : Layout) (x : Number) : List Char :=
  let sign := if x.isNegative then ['-'] else []
  if x.isFinite then sign ++ layout.decimal (Decimal.shortest x.magnitude)
  else if x.magnitude = Number.infinity then sign ++ ['i', 'n', 'f']
  else ['N', 'a', 'N']

end Layout

end Calculator
