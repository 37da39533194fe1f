/-!
# Numbers

A number is a binary64 value, given by its bits: a sign bit above 63 bits of magnitude. The magnitudes
order the numbers without their signs: the finite ones, then infinity, then NaN.
-/

namespace Calculator

/-- A binary64 value. Numbers with the same bits are equal, so `0` and `-0` differ, and NaN may have a
sign bit too. -/
structure Number where
  toBits : UInt64
deriving DecidableEq

namespace Number

def signWeight : Nat := 1 <<< 63

/-- The weight of the lowest exponent bit, so the number of fractions under one exponent. -/
def exponentWeight : Nat := 1 <<< 52

def infinity : Nat := 0x7FF * exponentWeight

def magnitude (x : Number) : Nat := x.toBits.toNat % signWeight

def isNegative (x : Number) : Bool := signWeight ≤ x.toBits.toNat

def isZero (x : Number) : Bool := x.magnitude == 0

/-- Neither infinite nor NaN. -/
def isFinite (x : Number) : Bool := x.magnitude < infinity

def ofParts (negative : Bool) (magnitude : Nat) : Number :=
  ⟨UInt64.ofNat (magnitude + if negative then signWeight else 0)⟩

/-- The number with the other sign bit, which is its product with `-1`. -/
def negate (x : Number) : Number := ofParts (!x.isNegative) x.magnitude

/-! ## Arithmetic -/

/-- The number that a float is. There is one NaN among floats, without sign bit: which sign bit an
operation gives to a NaN is not laid down, and here it gives none. -/
def ofFloat (x : Float) : Number := ⟨x.toBits⟩

def toFloat (x : Number) : Float := Float.ofBits x.toBits

instance (n : Nat) : OfNat Number n := ⟨ofFloat (Float.ofNat n)⟩

instance : OfScientific Number where
  ofScientific digits negative exponent := ofFloat (OfScientific.ofScientific digits negative exponent)

instance : Neg Number := ⟨negate⟩

instance : Add Number := ⟨fun x y => ofFloat (x.toFloat + y.toFloat)⟩

instance : Sub Number := ⟨fun x y => ofFloat (x.toFloat - y.toFloat)⟩

instance : Mul Number := ⟨fun x y => ofFloat (x.toFloat * y.toFloat)⟩

instance : Div Number := ⟨fun x y => ofFloat (x.toFloat / y.toFloat)⟩

end Number

end Calculator
