import Calculator.Number.Rounding

/-!
# Decimals

A decimal is a whole number of some power of ten. It is read from digits with an optional point
among them, and stands for the number nearest to its value.

`magnitude_congr`: decimals of one value stand for one number. `magnitude_ofMagnitude`: every finite
number has a decimal of exactly its value.
-/

namespace Calculator

/-- The value `digits * 10 ^ exponent`. -/
structure Decimal where
  digits : Nat
  exponent : Int
deriving DecidableEq

namespace Decimal

/-- The magnitude of the number nearest to a decimal. -/
def magnitude (d : Decimal) : Nat :=
  Number.nearest (d.digits * Nat.pow 10 d.exponent.toNat) (Nat.pow 10 (-d.exponent).toNat)

/-- Reads digits with at most one point among them; there may be none before or after it. -/
def ofNumeral (numeral : List Char) : Decimal :=
  let whole := numeral.takeWhile (· != '.')
  let fraction := (numeral.dropWhile (· != '.')).drop 1
  ⟨Nat.ofDigitChars 10 (whole ++ fraction) 0, -fraction.length⟩

/-- The exact value of a finite number without its sign. A fraction of `n` binary places has `n`
decimal places. -/
def ofMagnitude (magnitude : Nat) : Decimal :=
  let scale := Number.scale magnitude
  let significand := Number.significand magnitude
  if 1074 ≤ scale then ⟨significand <<< (scale - 1074), 0⟩
  else ⟨significand * Nat.pow 5 (1074 - scale), -(1074 - scale : Nat)⟩

/-! ## Laws -/

theorem magnitude_congr {d e : Decimal}
    (h : d.digits * Nat.pow 10 d.exponent.toNat * Nat.pow 10 (-e.exponent).toNat =
      e.digits * Nat.pow 10 e.exponent.toNat * Nat.pow 10 (-d.exponent).toNat) :
    d.magnitude = e.magnitude :=
  Number.nearest_congr (Nat.pow_pos (by decide)) (Nat.pow_pos (by decide)) h

theorem magnitude_le_infinity (d : Decimal) : d.magnitude ≤ Number.infinity := Nat.min_le_right ..

theorem magnitude_ofMagnitude {magnitude : Nat} (h : magnitude ≤ Number.infinity) :
    (ofMagnitude magnitude).magnitude = magnitude := by
  unfold ofMagnitude Decimal.magnitude
  dsimp only
  split
  · rename_i hs
    refine Number.nearest_eq (by simp) h ?_
    simp only [Number.unitsInOne, Number.units, Nat.pow_eq, Nat.shiftLeft_eq, Int.toNat_zero,
      Int.neg_zero, Nat.pow_zero, Nat.mul_one, Nat.one_mul, Nat.mul_assoc, ← Nat.pow_add, Nat.sub_add_cancel hs]
  · rename_i hs
    refine Number.nearest_eq (Nat.pow_pos (by decide)) h ?_
    have h1 : Nat.pow 10 0 = 1 := rfl
    have h10 : Nat.pow 10 (1074 - Number.scale magnitude) =
        Nat.pow 5 (1074 - Number.scale magnitude) * Nat.pow 2 (1074 - Number.scale magnitude) :=
      Nat.mul_pow 5 2 _
    have h2 : Number.unitsInOne =
        Nat.pow 2 (Number.scale magnitude) * Nat.pow 2 (1074 - Number.scale magnitude) := by
      have hadd := Nat.pow_add 2 (Number.scale magnitude) (1074 - Number.scale magnitude)
      rw [Nat.add_sub_cancel' (Nat.le_of_not_le hs)] at hadd
      exact (Nat.one_shiftLeft 1074).trans hadd
    have hunits : Number.units magnitude =
        Number.significand magnitude * Nat.pow 2 (Number.scale magnitude) := Nat.shiftLeft_eq ..
    simp only [Int.neg_neg, Int.toNat_natCast, Int.toNat_neg_natCast, Nat.mul_one, h1, h10, h2,
      hunits]
    ac_rfl

end Decimal

def Number.ofNumeral (numeral : List Char) : Number :=
  ofParts false (Decimal.ofNumeral numeral).magnitude

end Calculator
