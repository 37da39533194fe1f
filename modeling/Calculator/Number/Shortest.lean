import Calculator.Number.Decimal

/-!
# Shortest decimals

Of the decimals that stand for a number, the one with the fewest digits is written, and of several
the one nearest to the number's value. `magnitude_shortest`: what is written stands for the number.
-/

namespace Calculator.Decimal

/-- The decimals on either side of `d` with `places` digits fewer, the nearer one first. Of two as
near the greater one comes first. -/
def neighbours (d : Decimal) (places : Nat) : List Decimal :=
  let unit := Nat.pow 10 places
  let below : Decimal := ⟨d.digits / unit, d.exponent + places⟩
  let above : Decimal := ⟨d.digits / unit + 1, d.exponent + places⟩
  if 2 * (d.digits % unit) < unit then [below, above] else [above, below]

/-- The same value without zeros at the end of its digits; zero is the digit `0` alone. -/
def trim (d : Decimal) : Decimal :=
  if d.digits = 0 then ⟨0, 0⟩
  else if d.digits % 10 = 0 then trim ⟨d.digits / 10, d.exponent + 1⟩
  else d
termination_by d.digits

/-- The shortest decimal that stands for a finite number without its sign. -/
def shortest (magnitude : Nat) : Decimal :=
  let exact := ofMagnitude magnitude
  let length := (Nat.toDigits 10 exact.digits).length
  let hit := (List.range length).findSome? fun kept =>
    (exact.neighbours (length - (kept + 1))).find? (·.magnitude == magnitude)
  (hit.getD exact).trim

/-! ## Laws -/

theorem magnitude_trim (d : Decimal) : d.trim.magnitude = d.magnitude := by
  fun_induction trim d with
  | case1 d h0 => exact magnitude_congr (by simp [h0])
  | case2 d h0 h10 ih =>
    rw [ih]
    apply magnitude_congr
    obtain ⟨q, hq⟩ : ∃ q, d.digits = q * 10 := ⟨d.digits / 10, by omega⟩
    simp only [hq, Nat.mul_div_cancel q (show 0 < 10 by decide)]
    by_cases he : 0 ≤ d.exponent
    · have h1 : (d.exponent + 1).toNat = d.exponent.toNat + 1 := by omega
      have h2 : (-(d.exponent + 1)).toNat = 0 := by omega
      have h3 : (-d.exponent).toNat = 0 := by omega
      simp only [h1, h2, h3, Nat.pow_eq, Nat.pow_succ]
      ac_rfl
    · have h1 : (d.exponent + 1).toNat = 0 := by omega
      have h2 : d.exponent.toNat = 0 := by omega
      have h3 : (-d.exponent).toNat = (-(d.exponent + 1)).toNat + 1 := by omega
      simp only [h1, h2, h3, Nat.pow_eq, Nat.pow_succ]
      ac_rfl
  | case3 => rfl

theorem magnitude_shortest {magnitude : Nat} (h : magnitude ≤ Number.infinity) :
    (shortest magnitude).magnitude = magnitude := by
  unfold shortest
  dsimp only
  rw [magnitude_trim]
  generalize hhit : List.findSome? _ _ = hit
  cases hit with
  | none => exact magnitude_ofMagnitude h
  | some d =>
    obtain ⟨kept, -, hd⟩ := List.exists_of_findSome?_eq_some hhit
    have hback := List.find?_some hd
    exact eq_of_beq hback

end Calculator.Decimal
