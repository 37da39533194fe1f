import Calculator.Number

/-!
# Numbers and their bits

A number is its sign bit and its magnitude (`ofParts_self`), and every magnitude under either sign bit
is that of a number (`magnitude_ofParts`, `isNegative_ofParts`).
-/

namespace Calculator.Number

theorem toNat_toBits_ofParts (negative : Bool) {magnitude : Nat} (h : magnitude < signWeight) :
    (ofParts negative magnitude).toBits.toNat = magnitude + if negative then signWeight else 0 := by
  have hlt : magnitude + (if negative then signWeight else 0) < 2 ^ 64 := by
    simp only [signWeight, Nat.reduceShiftLeft] at h ⊢
    split <;> omega
  exact Nat.mod_eq_of_lt hlt

theorem magnitude_ofParts (negative : Bool) {magnitude : Nat} (h : magnitude < signWeight) :
    (ofParts negative magnitude).magnitude = magnitude := by
  unfold Number.magnitude
  rw [toNat_toBits_ofParts negative h]
  cases negative with
  | false => exact Nat.mod_eq_of_lt h
  | true => exact (Nat.add_mod_right ..).trans (Nat.mod_eq_of_lt h)

theorem isNegative_ofParts (negative : Bool) {magnitude : Nat} (h : magnitude < signWeight) :
    (ofParts negative magnitude).isNegative = negative := by
  unfold isNegative
  rw [toNat_toBits_ofParts negative h]
  cases negative with
  | false => exact decide_eq_false (Nat.not_le.2 h)
  | true => exact decide_eq_true (Nat.le_add_left ..)

theorem ofParts_self (x : Number) : ofParts x.isNegative x.magnitude = x := by
  have hlt : x.toBits.toNat < 2 ^ 64 := x.toBits.toNat_lt
  have hparts : x.magnitude + (if x.isNegative then signWeight else 0) = x.toBits.toNat := by
    unfold isNegative magnitude signWeight
    simp only [decide_eq_true_eq, Nat.reduceShiftLeft]
    split <;> omega
  unfold ofParts
  rw [hparts, UInt64.ofNat_toNat]

theorem magnitude_lt (x : Number) : x.magnitude < signWeight := Nat.mod_lt _ (by decide)

theorem lt_signWeight_of_le_infinity {magnitude : Nat} (h : magnitude ≤ infinity) :
    magnitude < signWeight :=
  Nat.lt_of_le_of_lt h (by decide)

/-! ## The other sign -/

theorem magnitude_negate (x : Number) : x.negate.magnitude = x.magnitude :=
  magnitude_ofParts _ x.magnitude_lt

theorem isNegative_negate (x : Number) : x.negate.isNegative = !x.isNegative :=
  isNegative_ofParts _ x.magnitude_lt

theorem negate_negate (x : Number) : x.negate.negate = x := by
  rw [negate, isNegative_negate, magnitude_negate, Bool.not_not, ofParts_self]

theorem isZero_iff {x : Number} : x.isZero = true ↔ x = 0 ∨ x = -0.0 := by
  constructor
  · intro h
    have hself := ofParts_self x
    rw [eq_of_beq h] at hself
    rw [← hself]
    cases x.isNegative with
    | false => exact Or.inl (by decide +kernel)
    | true => exact Or.inr (by decide +kernel)
  · rintro (rfl | rfl) <;> decide +kernel

end Calculator.Number
