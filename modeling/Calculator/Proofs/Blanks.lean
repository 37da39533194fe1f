import Calculator.Proofs.TextParts

/-!
# Blanks between lexemes

Where a text is parted, any blanks can be put in (`tokenize_insert_blanks`): the tokens stay the same,
and of an offence only the position changes, if it is behind them.
-/

namespace Calculator

theorem parted_blanks_append {front blanks rest : List Char}
    (hblanks : ∀ c ∈ blanks, isBlank c = true) (h : Parted front rest) :
    Parted front (blanks ++ rest) := by
  cases blanks with
  | nil => exact h
  | cons c blanks =>
    refine parted_cons _ (Bool.eq_false_iff.2 fun hnumeric => ?_) _
    have hblank := hblanks c (List.mem_cons_self ..)
    rw [isBlank_of_isNumeric hnumeric] at hblank
    cases hblank

theorem Scan.after_insert_blanks (previous : Option Token) {front blanks rest : List Char}
    (hblanks : ∀ c ∈ blanks, isBlank c = true) (h : Parted front rest) :
    after previous 0 (front ++ (blanks ++ rest)) =
      (after previous 0 (front ++ rest)).mapFailure fun error =>
        if front.length ≤ error.position then error.shift blanks.length else error := by
  rw [after_append _ _ (parted_blanks_append hblanks h), after_append _ _ h,
    after_blanks_append _ _ hblanks, after_add]
  cases hfront : (after previous 0 front).failure? with
  | some error =>
    rw [andThen_of_failure hfront, andThen_of_failure hfront]
    refine (mapFailure_eq_self fun error' herror => if_neg ?_).symm
    have := position_of_failure herror
    omega
  | none =>
    rw [andThen_mapFailure hfront]
    refine mapFailure_congr fun error herror => (if_pos ?_).symm
    rw [failure?_andThen hfront] at herror
    have := position_of_failure herror
    omega

/-- **Blanks.** Blanks may stand anywhere but within a run of digits and points or between a sign and
its number. They move the offences behind them and change nothing else. -/
theorem tokenize_insert_blanks {front blanks rest : String}
    (hblanks : ∀ c ∈ blanks.toList, isBlank c = true) (h : Parted front.toList rest.toList) :
    tokenize (front ++ blanks ++ rest) =
      (tokenize (front ++ rest)).mapError fun error =>
        if front.length ≤ error.position then error.shift blanks.length else error := by
  have hscan := Scan.after_insert_blanks none hblanks h
  simp only [tokenize, Scan.ofText, String.toList_append, List.append_assoc, hscan,
    Scan.result_mapFailure, String.length_toList]

/-- A blank before the parenthesis of `2*-(3&)` leaves the sign an operator. -/
theorem tokenize_insert_blanks_before_parenthesis :
    (∀ c ∈ " \t".toList, isBlank c = true) ∧ Parted "2*-".toList "(3&)".toList ∧
      tokenize "2*- \t(3&)" = .error (.unknownCharacter '&' 7) := by
  have hblanks : ∀ c ∈ " \t".toList, isBlank c = true := by simp [isBlank]
  have hparted : Parted "2*-".toList "(3&)".toList := parted_cons _ rfl _
  have herror : tokenize ("2*-" ++ "(3&)") = .error (.unknownCharacter '&' 5) :=
    tokenize_eq_error_iff_failure.2 (by decide +kernel)
  have h := tokenize_insert_blanks hblanks hparted
  rw [herror] at h
  exact ⟨hblanks, hparted, h⟩

end Calculator
