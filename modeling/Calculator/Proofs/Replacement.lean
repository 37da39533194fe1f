import Calculator.Proofs.Collapse

/-!
# A group and its value

`outcome_valueOf_replace`: a group with balanced contents can be replaced by its value, whatever
stands before and behind it.
-/

namespace Calculator

/-- Groups that open behind `front` and `front'` are collapsed first, and alike. So it is enough to
compare the two where no group opens behind them. -/
theorem outcome_collapseGroups_congr {front front' : List Token}
    (h : ∀ behind, Token.opening ∉ behind → (collapseGroups (front ++ behind)).outcome =
      (collapseGroups (front' ++ behind)).outcome) (behind : List Token) :
    (collapseGroups (front ++ behind)).outcome = (collapseGroups (front' ++ behind)).outcome := by
  induction behind using Group.induction with
  | flat behind ho => exact h behind ho
  | unclosed before after ho hc =>
    rw [← List.append_assoc, ← List.append_assoc, collapseGroups_unclosed _ ho hc,
      collapseGroups_unclosed _ ho hc]
  | last group hlast ih =>
    -- the same group, seen from further left
    have hstep : ∀ before, (collapseGroups (before ++ group.tokens)).outcome =
        groupValue group.inside >>= fun value =>
          (collapseGroups (before ++ group.replaceBy value)).outcome := by
      intro before
      have hwide : Group.IsLast ⟨before ++ group.before, group.inside, group.behind⟩ :=
        ⟨hlast.opening_inside, hlast.closing_inside, hlast.opening_behind⟩
      simpa [Group.tokens, Group.replaceBy, groupValue] using outcome_collapseGroups_tokens hwide
    rw [hstep front, hstep front']
    congr 1
    funext value
    exact ih value

theorem collapse_group_empty (inside : Nesting) :
    (Nesting.group inside .empty).collapse =
      inside.collapse >>= groupValue >>= fun value => .ok [.number value] := rfl

/-- A group alone has the value of its contents. -/
theorem collapse_of_value_group_empty {inside : Nesting} {value : Number}
    (h : (Nesting.group inside .empty).value = .ok value) :
    (Nesting.group inside .empty).collapse = .ok [.number value] := by
  rw [Nesting.value, collapse_group_empty] at h
  rw [collapse_group_empty]
  cases hv : inside.collapse >>= groupValue with
  | error error => rw [hv] at h; cases h
  | ok value' =>
    rw [hv, ok_bind, ok_bind, outcome_valueOfFlat_number] at h
    cases h; rfl

/-- **Replacement.** The tokens around a group with a value may be any, with parentheses that have
no partner or with errors of their own. -/
theorem outcome_valueOf_replace {inside : List Token} {value : Number} (hinside : Balanced inside)
    (hvalue : (valueOf (.opening :: (inside ++ [.closing]))).outcome = .ok value)
    (before behind : List Token) :
    (valueOf (before ++ .opening :: (inside ++ .closing :: behind))).outcome =
      (valueOf (before ++ .number value :: behind)).outcome := by
  obtain ⟨nesting, rfl⟩ := hinside.exists_toTokens
  have hgroup : (Nesting.group nesting .empty).collapse = .ok [.number value] := by
    apply collapse_of_value_group_empty
    rw [← outcome_valueOf_toTokens]
    exact hvalue
  -- where no group opens behind it, the group is the first one to be collapsed
  have hflat : ∀ behind, Token.opening ∉ behind →
      (collapseGroups (before ++ (Nesting.group nesting .empty).toTokens ++ behind)).outcome =
        (collapseGroups (before ++ [.number value] ++ behind)).outcome := by
    intro behind ho
    rw [List.append_assoc, outcome_collapseGroups_toTokens _ before ho, hgroup, ok_bind,
      List.append_assoc]
  have hcollapse := outcome_collapseGroups_congr hflat behind
  simp only [Nesting.toTokens, List.append_assoc, List.cons_append, List.nil_append] at hcollapse
  rw [outcome_valueOf, outcome_valueOf, hcollapse]

/-- In `)(-(1+2))` the group is collapsed before the parenthesis without partner is met, and in
`(-(1+2))*2` its value takes the sign in front of it. -/
theorem outcome_valueOf_replace_open_context :
    Balanced [.number 1, .operator .add, .number 2] ∧
      (valueOf [.opening, .number 1, .operator .add, .number 2, .closing]).outcome = .ok 3 ∧
      ((valueOf [.closing, .opening, .operator .sub, .opening, .number 1, .operator .add, .number 2,
        .closing, .closing]).outcome =
          (valueOf [.closing, .opening, .operator .sub, .number 3, .closing]).outcome ∧
        (valueOf [.closing, .opening, .operator .sub, .number 3, .closing]).outcome =
          .error (.unmatched ')')) ∧
      (valueOf [.opening, .operator .sub, .opening, .number 1, .operator .add, .number 2, .closing,
        .closing, .operator .mul, .number 2]).outcome =
          (valueOf [.opening, .operator .sub, .number 3, .closing, .operator .mul,
            .number 2]).outcome ∧
        (valueOf [.opening, .operator .sub, .number 3, .closing, .operator .mul,
          .number 2]).outcome = .ok (-6) := by
  have hb : Balanced [.number 1, .operator .add, .number 2] := by decide
  have hsum : (1 + 2 : Number) = 3 := by decide +kernel
  have hv : (valueOf [.opening, .number 1, .operator .add, .number 2, .closing]).outcome =
      .ok (1 + 2) :=
    outcome_valueOf_toTokens (.group (.number 1 (.operator .add (.number 2 .empty))) .empty)
  rw [hsum] at hv
  exact ⟨hb, hv, ⟨outcome_valueOf_replace hb hv [.closing, .opening, .operator .sub] [.closing],
      by decide +kernel⟩,
    outcome_valueOf_replace hb hv [.opening, .operator .sub] [.closing, .operator .mul, .number 2],
    by decide +kernel⟩

end Calculator
