import Calculator.Lexeme

/-!
# Literals

A run of digits and points is a numeral if it has a digit and at most one point. Numerals are the
runs that are read without error, with a sign or without one (`read_literal_eq_ok_iff`).
-/

namespace Calculator

structure IsNumeral (run : List Char) : Prop where
  numeric : ∀ c ∈ run, isNumeric c = true
  digit : ∃ c ∈ run, c.isDigit = true
  points : run.count '.' ≤ 1

theorem IsNumeral.exists_cons {run : List Char} (h : IsNumeral run) :
    ∃ c rest, run = c :: rest ∧ isNumeric c = true := by
  obtain ⟨d, hd, -⟩ := h.digit
  cases run with
  | nil => cases hd
  | cons c rest => exact ⟨c, rest, rfl, h.numeric c (List.mem_cons_self ..)⟩

namespace Lexeme

/-- The points of a run are its first one and those in its fraction. -/
theorem count_point (run : List Char) :
    run.count '.' = (if '.' ∈ run then 1 else 0) +
      ((run.dropWhile (· != '.')).drop 1).count '.' := by
  induction run with
  | nil => rfl
  | cons c rest ih =>
    by_cases hc : c = '.'
    · subst hc
      simp [Nat.add_comm]
    · have hne : ¬ '.' = c := fun h => hc h.symm
      simp [hc, hne, ih]

theorem throughSecondPoint?_eq_none_iff {run : List Char} :
    throughSecondPoint? run = none ↔ run.count '.' ≤ 1 := by
  have hcount := count_point run
  unfold throughSecondPoint?
  dsimp only
  by_cases hf : '.' ∈ (run.dropWhile (· != '.')).drop 1
  · have hpos := List.count_pos_iff.2 hf
    have hmem : '.' ∈ run :=
      (List.dropWhile_sublist _).subset ((List.drop_sublist 1 _).subset hf)
    rw [if_pos hmem] at hcount
    rw [if_pos (List.contains_iff_mem.2 hf)]
    exact ⟨fun h => (by cases h), fun h => (by omega)⟩
  · have hzero := List.count_eq_zero.2 hf
    rw [if_neg (fun h => hf (List.contains_iff_mem.1 h))]
    refine ⟨fun _ => ?_, fun _ => rfl⟩
    split at hcount <;> omega

theorem beginsWithBarePoint_of_isNumeral {run : List Char} (h : IsNumeral run) :
    beginsWithBarePoint run = false := by
  unfold beginsWithBarePoint
  split
  · rename_i rest
    cases rest with
    | nil =>
      obtain ⟨d, hd, hdigit⟩ := h.digit
      rw [List.mem_singleton.1 hd] at hdigit
      exact absurd hdigit (by decide)
    | cons c rest =>
      have hc := h.numeric c (by simp)
      have hpoints := h.points
      simp only [isNumeric, Bool.or_eq_true, beq_iff_eq] at hc
      rcases hc with hdigit | rfl
      · simp [hdigit]
      · simp at hpoints
  · rfl

theorem read_literal_eq_ok_iff (position : Nat) (sign? : Option Sign) {run : List Char}
    (hrun : ∀ c ∈ run, isNumeric c = true) {token : Token} :
    (literal sign? run).read position = .ok token ↔
      IsNumeral run ∧ token = .number ((sign?.getD .plus).apply (Number.ofNumeral run)) := by
  constructor
  · intro h
    simp only [read] at h
    split at h
    · cases h
    · split at h
      · cases h
      · rename_i hpoints
        split at h
        · rename_i hdigit
          cases h
          exact ⟨⟨hrun, List.any_eq_true.1 hdigit, throughSecondPoint?_eq_none_iff.1 hpoints⟩, rfl⟩
        · cases h
  · rintro ⟨h, rfl⟩
    have hpoints := throughSecondPoint?_eq_none_iff.2 h.points
    have hdigit := List.any_eq_true.2 h.digit
    simp [read, beginsWithBarePoint_of_isNumeral h, hpoints, hdigit]

end Lexeme

end Calculator
