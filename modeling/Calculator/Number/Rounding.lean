import Calculator.Number

/-!
# The number nearest to a quotient

A finite number is a whole count of the least positive one, `significand * 2 ^ scale`. A quotient is
rounded to the nearest such count whose significand fits, a half to the even one, and to infinity
past the last.

`nearest_eq`: a quotient that is a number's value is rounded to that number. `nearest_congr`: the
result depends on the quotient alone.
-/

namespace Calculator.Number

/-- How many of the least positive number make one. -/
def unitsInOne : Nat := 1 <<< 1074

/-- The power of two that a number's significand is multiplied by; none for the subnormal numbers. -/
def scale (magnitude : Nat) : Nat := magnitude / exponentWeight - 1

/-- The fraction bits, with the leading one that the numbers above the subnormal ones imply. -/
def significand (magnitude : Nat) : Nat := magnitude - scale magnitude * exponentWeight

/-- The value of a finite number without its sign, counted in the least positive number. -/
def units (magnitude : Nat) : Nat := significand magnitude <<< scale magnitude

/-- The whole number nearest to a quotient, of two the even one. -/
def roundDiv (numerator denominator : Nat) : Nat :=
  let whole := numerator / denominator
  let twiceRest := 2 * (numerator % denominator)
  if twiceRest < denominator then whole
  else if denominator < twiceRest then whole + 1
  else whole + whole % 2

/-- The magnitude of the number nearest to a quotient. A significand that rounds up to one bit more
carries into the exponent. -/
def nearest (numerator denominator : Nat) : Nat :=
  let count := numerator * unitsInOne
  let scale := (count / denominator).log2 - 52
  min (scale * exponentWeight + roundDiv count (denominator <<< scale)) infinity

/-! ## Laws -/

theorem roundDiv_mul_self (n : Nat) {d : Nat} (hd : 0 < d) : roundDiv (n * d) d = n := by
  simp [roundDiv, Nat.mul_div_cancel _ hd, hd]

theorem roundDiv_mul_mul (n d : Nat) {c : Nat} (hc : 0 < c) :
    roundDiv (n * c) (d * c) = roundDiv n d := by
  have hlt (a b : Nat) : 2 * (a * c) < b * c ↔ 2 * a < b := by
    rw [← Nat.mul_assoc]; exact Nat.mul_lt_mul_right hc
  have hgt (a b : Nat) : b * c < 2 * (a * c) ↔ b < 2 * a := by
    rw [← Nat.mul_assoc]; exact Nat.mul_lt_mul_right hc
  simp only [roundDiv, Nat.mul_div_mul_right _ _ hc, Nat.mul_mod_mul_right, hlt, hgt]

theorem nearest_mul_mul (n d : Nat) {c : Nat} (hc : 0 < c) :
    nearest (n * c) (d * c) = nearest n d := by
  have h1 : n * c * unitsInOne = n * unitsInOne * c := Nat.mul_right_comm ..
  have h2 (s : Nat) : (d * c) <<< s = d <<< s * c := by
    rw [Nat.shiftLeft_eq, Nat.shiftLeft_eq, Nat.mul_right_comm]
  simp only [nearest, h1, h2, Nat.mul_div_mul_right _ _ hc, roundDiv_mul_mul _ _ hc]

theorem nearest_congr {n d n' d' : Nat} (hd : 0 < d) (hd' : 0 < d') (h : n * d' = n' * d) :
    nearest n d = nearest n' d' := by
  rw [← nearest_mul_mul n d hd', ← nearest_mul_mul n' d' hd, h, Nat.mul_comm d]

theorem scale_mul_add_significand (magnitude : Nat) :
    scale magnitude * exponentWeight + significand magnitude = magnitude := by
  have : scale magnitude * exponentWeight ≤ magnitude :=
    Nat.le_trans (Nat.mul_le_mul_right _ (Nat.sub_le ..)) (Nat.div_mul_le_self ..)
  unfold significand
  omega

theorem log2_units (magnitude : Nat) : (units magnitude).log2 - 52 = scale magnitude := by
  have hsum := scale_mul_add_significand magnitude
  have hdiv := Nat.div_add_mod magnitude exponentWeight
  have hmod := Nat.mod_lt magnitude (show 0 < exponentWeight by decide)
  by_cases hs : magnitude / exponentWeight = 0
  · -- subnormal: no scale, and a short significand
    have h0 : scale magnitude = 0 := by simp [scale, hs]
    have hlt : units magnitude < 2 ^ 52 := by
      unfold exponentWeight at *
      simp [units, h0]
      omega
    rw [h0]
    by_cases hu : units magnitude = 0
    · simp [hu]
    · have := (Nat.log2_lt hu).2 hlt
      omega
  · -- a significand of 53 bits
    have h1 : scale magnitude + 1 = magnitude / exponentWeight :=
      Nat.sub_add_cancel (Nat.pos_of_ne_zero hs)
    rw [← h1] at hdiv
    have hlo : 2 ^ 52 ≤ significand magnitude := by
      unfold exponentWeight at *
      omega
    have hhi : significand magnitude < 2 ^ 53 := by
      unfold exponentWeight at *
      omega
    have hu : units magnitude ≠ 0 := by
      have hs0 : significand magnitude ≠ 0 := by omega
      rw [units, Nat.shiftLeft_eq]
      exact Nat.mul_ne_zero hs0 (Nat.ne_of_gt (Nat.two_pow_pos _))
    have h2 : 2 ^ (52 + scale magnitude) ≤ units magnitude := by
      rw [units, Nat.shiftLeft_eq, Nat.pow_add]; exact Nat.mul_le_mul_right _ hlo
    have h3 : units magnitude < 2 ^ (53 + scale magnitude) := by
      rw [units, Nat.shiftLeft_eq, Nat.pow_add]
      exact (Nat.mul_lt_mul_right (Nat.two_pow_pos _)).2 hhi
    have := (Nat.le_log2 hu).2 h2
    have := (Nat.log2_lt hu).2 h3
    omega

theorem nearest_eq {n d magnitude : Nat} (hd : 0 < d) (hm : magnitude ≤ infinity)
    (h : n * unitsInOne = units magnitude * d) : nearest n d = magnitude := by
  have hsum := scale_mul_add_significand magnitude
  have hround : roundDiv (units magnitude * d) (d <<< scale magnitude) = significand magnitude := by
    rw [units, Nat.shiftLeft_eq, Nat.shiftLeft_eq, Nat.mul_assoc, Nat.mul_comm (2 ^ _) d]
    exact roundDiv_mul_self _ (Nat.mul_pos hd (Nat.two_pow_pos _))
  simp only [nearest, h, Nat.mul_div_cancel _ hd, log2_units, hround, hsum]
  omega

end Calculator.Number
