import Mathlib.Algebra.Group.Nat.Defs
import Mathlib.Data.List.TakeWhile
import Calculator.Number.Bits
import Calculator.Proofs.Literal
import Calculator.Token

/-!
# Written numbers

A finite number is written as a numeral, after a hyphen if its sign bit is set. Reading the numeral
and the sign gives the number again, bit for bit (`apply_sign_ofNumeral`).
-/

namespace Calculator

namespace Decimal

theorem ne_point_of_isDigit {c : Char} (hc : c.isDigit = true) : (c != '.') = true := by
  rw [bne_iff_ne]
  rintro rfl
  exact absurd hc (by decide)

theorem ofNumeral_whole {whole : List Char} (hw : ∀ c ∈ whole, c.isDigit = true) :
    ofNumeral whole = ⟨Nat.ofDigitChars 10 whole 0, 0⟩ := by
  have hp : ∀ c ∈ whole, (c != '.') = true := fun c hc => ne_point_of_isDigit (hw c hc)
  simp [ofNumeral, List.takeWhile_eq_self_iff.2 hp, List.dropWhile_eq_nil_iff.2 hp]

theorem ofNumeral_point {whole : List Char} (hw : ∀ c ∈ whole, c.isDigit = true)
    (fraction : List Char) :
    ofNumeral (whole ++ '.' :: fraction) =
      ⟨Nat.ofDigitChars 10 (whole ++ fraction) 0, -fraction.length⟩ := by
  have hp : ∀ c ∈ whole, (c != '.') = true := fun c hc => ne_point_of_isDigit (hw c hc)
  simp [ofNumeral, List.takeWhile_append_of_pos hp, List.dropWhile_append_of_pos hp]

theorem count_point_of_isDigit {digits : List Char} (h : ∀ c ∈ digits, c.isDigit = true) :
    digits.count '.' = 0 := by
  refine List.count_eq_zero.2 fun hm => ?_
  exact absurd (h '.' hm) (by decide)

theorem isNumeral_whole {whole : List Char} (hw : ∀ c ∈ whole, c.isDigit = true)
    (hne : whole ≠ []) : IsNumeral whole where
  numeric := fun c hc => by simp [isNumeric, hw c hc]
  digit := by
    obtain ⟨c, hc⟩ := List.exists_mem_of_ne_nil whole hne
    exact ⟨c, hc, hw c hc⟩
  points := by rw [count_point_of_isDigit hw]; omega

theorem isNumeral_point {whole fraction : List Char} (hw : ∀ c ∈ whole, c.isDigit = true)
    (hf : ∀ c ∈ fraction, c.isDigit = true) (hne : fraction ≠ []) :
    IsNumeral (whole ++ '.' :: fraction) where
  numeric := by
    intro c hc
    rcases List.mem_append.1 hc with hc | hc
    · simp [isNumeric, hw c hc]
    · rcases List.mem_cons.1 hc with rfl | hc
      · rfl
      · simp [isNumeric, hf c hc]
  digit := by
    obtain ⟨c, hc⟩ := List.exists_mem_of_ne_nil fraction hne
    exact ⟨c, by simp [hc], hf c hc⟩
  points := by
    simp [List.count_append, count_point_of_isDigit hw, count_point_of_isDigit hf]

theorem isDigit_of_mem_zeros {n : Nat} {c : Char} (hc : c ∈ List.replicate n '0') :
    c.isDigit = true := by
  rw [List.eq_of_mem_replicate hc]; rfl

theorem ofNumeral_leading_zeros (n : Nat) (digits : List Char) :
    ofNumeral ('0' :: '.' :: (List.replicate n '0' ++ digits)) =
      ⟨Nat.ofDigitChars 10 digits 0, -(n + digits.length : Nat)⟩ := by
  have hzero : ∀ c ∈ ['0'], c.isDigit = true := by simp
  have h := ofNumeral_point hzero (List.replicate n '0' ++ digits)
  rw [List.singleton_append] at h
  rw [h, List.singleton_append, Nat.ofDigitChars_cons, Nat.ofDigitChars_append,
    Nat.ofDigitChars_replicate_zero]
  simp

theorem ofNumeral_trailing_zeros {digits : List Char} (hd : ∀ c ∈ digits, c.isDigit = true)
    (n : Nat) : ofNumeral (digits ++ List.replicate n '0') =
      ⟨10 ^ n * Nat.ofDigitChars 10 digits 0, 0⟩ := by
  rw [ofNumeral_whole, Nat.ofDigitChars_append, Nat.ofDigitChars_replicate_zero]
  intro c hc
  rcases List.mem_append.1 hc with hc | hc
  · exact hd c hc
  · exact isDigit_of_mem_zeros hc

theorem ofNumeral_inner_point {digits : List Char} (hd : ∀ c ∈ digits, c.isDigit = true)
    (k : Nat) : ofNumeral (digits.take k ++ '.' :: digits.drop k) =
      ⟨Nat.ofDigitChars 10 digits 0, -(digits.length - k : Nat)⟩ := by
  rw [ofNumeral_point fun c hc => hd c (List.mem_of_mem_take hc), List.take_append_drop,
    List.length_drop]

/-- What is written without exponent is a numeral, and stands for the same number. -/
theorem positional_reads (d : Decimal) : IsNumeral (Layout.positional [] d) ∧
    (ofNumeral (Layout.positional [] d)).magnitude = d.magnitude := by
  have hdigits : ∀ c ∈ Nat.toDigits 10 d.digits, c.isDigit = true :=
    fun c hc => Nat.isDigit_of_mem_toDigits (by decide) (by decide) hc
  have hne : Nat.toDigits 10 d.digits ≠ [] := Nat.toDigits_ne_nil
  have hvalue : Nat.ofDigitChars 10 (Nat.toDigits 10 d.digits) 0 = d.digits :=
    Nat.ofDigitChars_ten_toDigits
  unfold Layout.positional
  dsimp only
  generalize Nat.toDigits 10 d.digits = digits at hdigits hne hvalue ⊢
  split
  · rename_i hpoint
    have hzero : ∀ c ∈ ['0'], c.isDigit = true := by simp
    refine ⟨isNumeral_point hzero ?_ (by simp [hne]), ?_⟩
    · intro c hc
      rcases List.mem_append.1 hc with hc | hc
      · exact isDigit_of_mem_zeros hc
      · exact hdigits c hc
    · rw [ofNumeral_leading_zeros, hvalue]
      congr 2
      omega
  · rename_i hpoint
    split
    · rename_i hexponent
      rw [List.append_nil]
      refine ⟨isNumeral_whole ?_ (by simp [hne]), ?_⟩
      · intro c hc
        rcases List.mem_append.1 hc with hc | hc
        · exact hdigits c hc
        · exact isDigit_of_mem_zeros hc
      · rw [ofNumeral_trailing_zeros hdigits, hvalue]
        apply magnitude_congr
        have hnone : (-d.exponent).toNat = 0 := by omega
        simp [hnone, Nat.mul_comm]
    · rename_i hexponent
      have hlen : ((digits.length : Int) + d.exponent).toNat < digits.length := by omega
      refine ⟨isNumeral_point (fun c hc => hdigits c (List.mem_of_mem_take hc))
        (fun c hc => hdigits c (List.mem_of_mem_drop hc)) (by simpa using hlen), ?_⟩
      rw [ofNumeral_inner_point hdigits, hvalue]
      congr 2
      omega

end Decimal

namespace Number

/-- The digits of a finite number, without its sign. -/
def numeral (x : Number) : List Char := Layout.plain.decimal (Decimal.shortest x.magnitude)

/-- The sign that a number is written with. -/
def sign (x : Number) : Sign := if x.isNegative then .minus else .plus

theorem spell_number {x : Number} (hx : x.isFinite = true) :
    Token.spell (.number x) = (if x.isNegative then ['-'] else []) ++ x.numeral := by
  simp [Token.spell, Layout.number, hx, numeral]

theorem magnitude_le_infinity {x : Number} (hx : x.isFinite = true) : x.magnitude ≤ infinity := by
  unfold isFinite at hx
  exact Nat.le_of_lt (of_decide_eq_true hx)

theorem isNumeral_numeral (x : Number) : IsNumeral x.numeral :=
  (Decimal.positional_reads _).1

theorem ofNumeral_numeral {x : Number} (hx : x.isFinite = true) :
    ofNumeral x.numeral = ofParts false x.magnitude := by
  have hm := magnitude_le_infinity hx
  have hread : (Decimal.ofNumeral x.numeral).magnitude = x.magnitude :=
    (Decimal.positional_reads _).2.trans (Decimal.magnitude_shortest hm)
  rw [ofNumeral, hread]

theorem apply_sign_ofNumeral {x : Number} (hx : x.isFinite = true) :
    x.sign.apply (ofNumeral x.numeral) = x := by
  have hm := x.magnitude_lt
  have hself := ofParts_self x
  rw [ofNumeral_numeral hx]
  unfold sign
  split
  · rename_i hneg
    rw [hneg] at hself
    rw [Sign.apply, negate, isNegative_ofParts false hm, magnitude_ofParts false hm]
    exact hself
  · rename_i hneg
    rw [Bool.not_eq_true] at hneg
    rw [hneg] at hself
    exact hself

end Number

end Calculator
