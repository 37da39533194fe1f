import Calculator.Proofs.Collapse

/-!
# Parentheses without partner

Whether the parentheses of some tokens have partners is a matter of counting them from the right.
`outcome_collapseGroups_parentheses`: replacing the right-most group again and again comes to the
same verdict, unless a group on the way has no value.
-/

namespace Calculator

/-- From some point on more parentheses are opened than closed. -/
def Unclosed (tokens : List Token) : Prop :=
  ∃ behind, behind <:+ tokens ∧ behind.count .closing < behind.count .opening

/-- All parentheses that are opened are closed, and others too. -/
structure Unopened (tokens : List Token) : Prop where
  closed : ¬ Unclosed tokens
  total : tokens.count .opening < tokens.count .closing

instance (tokens : List Token) : Decidable (Unclosed tokens) :=
  decidable_of_iff (∃ behind ∈ tokens.tails, behind.count .closing < behind.count .opening)
    (by simp only [Unclosed, List.mem_tails])

instance (tokens : List Token) : Decidable (Unopened tokens) :=
  decidable_of_iff (¬ Unclosed tokens ∧ tokens.count .opening < tokens.count .closing)
    ⟨fun h => ⟨h.1, h.2⟩, fun h => ⟨h.closed, h.total⟩⟩

/-- Groups with these contents are worked out while the tokens are collapsed. -/
inductive WorksOut : List Token → List Token → Prop
  | last {group : Group} (h : group.IsLast) : WorksOut group.tokens group.inside
  | later {group : Group} {value : Number} {contents : List Token} (h : group.IsLast)
      (hvalue : groupValue group.inside = .ok value)
      (hlater : WorksOut (group.replaceBy value) contents) : WorksOut group.tokens contents

/-! ## Counting from the right -/

theorem not_unclosed_iff {tokens : List Token} : ¬ Unclosed tokens ↔
    ∀ behind, behind <:+ tokens → behind.count .opening ≤ behind.count .closing := by
  simp [Unclosed]

theorem balanced_iff {tokens : List Token} : Balanced tokens ↔
    ¬ Unclosed tokens ∧ tokens.count .opening = tokens.count .closing := by
  rw [not_unclosed_iff]
  constructor
  · intro h
    exact ⟨fun behind hb => h.count_le_of_suffix hb, h.total⟩
  · rintro ⟨hsuffix, htotal⟩
    refine ⟨htotal, ?_⟩
    rintro front ⟨behind, rfl⟩
    have hbehind := hsuffix behind (List.suffix_append ..)
    simp only [List.count_append] at htotal
    omega

theorem balanced_or_unclosed_or_unopened (tokens : List Token) :
    Balanced tokens ∨ Unclosed tokens ∨ Unopened tokens := by
  by_cases hu : Unclosed tokens
  · exact Or.inr (Or.inl hu)
  · have hall := not_unclosed_iff.1 hu tokens (List.suffix_refl _)
    by_cases htotal : tokens.count .opening = tokens.count .closing
    · exact Or.inl (balanced_iff.2 ⟨hu, htotal⟩)
    · exact Or.inr (Or.inr ⟨hu, by omega⟩)

theorem Balanced.not_unclosed {tokens : List Token} (h : Balanced tokens) : ¬ Unclosed tokens :=
  (balanced_iff.1 h).1

theorem Balanced.not_unopened {tokens : List Token} (h : Balanced tokens) : ¬ Unopened tokens := by
  intro hu
  have := hu.total
  have := h.total
  omega

/-- Where nothing is opened behind `front`, only suffixes that reach into `front` matter. -/
theorem unclosed_append_iff {front behind : List Token} (h : Token.opening ∉ behind) :
    Unclosed (front ++ behind) ↔ ∃ last, last <:+ front ∧
      last.count .closing + behind.count .closing < last.count .opening := by
  have hnone : behind.count .opening = 0 := List.count_eq_zero.2 h
  constructor
  · rintro ⟨suffix, hsuffix, hcount⟩
    rcases List.suffix_or_suffix_of_suffix hsuffix (List.suffix_append front behind) with hs | hs
    · have := hs.sublist.count_le .opening
      omega
    · obtain ⟨last, rfl⟩ := hs
      simp only [List.count_append] at hcount
      exact ⟨last, List.suffix_append_self_iff.1 hsuffix, by omega⟩
  · rintro ⟨last, hlast, hcount⟩
    refine ⟨last ++ behind, List.suffix_append_self_iff.2 hlast, ?_⟩
    simp only [List.count_append]
    omega

/-! ## A group and the number in its place -/

section
variable {group : Group} (h : group.IsLast) (value : Number)

theorem count_opening_tokens : group.tokens.count .opening =
    (group.replaceBy value).count .opening + group.inside.count .opening + 1 := by
  simp [Group.tokens, Group.replaceBy]
  omega

theorem count_closing_tokens : group.tokens.count .closing =
    (group.replaceBy value).count .closing + group.inside.count .closing + 1 := by
  simp [Group.tokens, Group.replaceBy]
  omega

include h

theorem unclosed_tokens_iff : Unclosed group.tokens ↔ Unclosed (group.replaceBy value) := by
  obtain ⟨before, inside, behind⟩ := group
  have hin : inside.count .closing = 0 := List.count_eq_zero.2 h.closing_inside
  have hgroup : Token.opening ∉ inside ++ .closing :: behind := by
    simp [h.opening_inside, h.opening_behind]
  have hnumber : Token.opening ∉ .number value :: behind := by simp [h.opening_behind]
  have htokens : Group.tokens ⟨before, inside, behind⟩ =
      (before ++ [.opening]) ++ (inside ++ .closing :: behind) := by simp [Group.tokens]
  rw [htokens, Group.replaceBy, unclosed_append_iff hgroup, unclosed_append_iff hnumber]
  -- the parenthesis opened here is closed by the first one behind it
  constructor
  · rintro ⟨last, hlast, hcount⟩
    rcases List.suffix_concat_iff.1 hlast with rfl | ⟨last', rfl, hlast'⟩
    · simp at hcount
    · refine ⟨last', hlast', ?_⟩
      simp [hin] at hcount ⊢
      omega
  · rintro ⟨last, hlast, hcount⟩
    refine ⟨last ++ [.opening], List.suffix_append_self_iff.2 hlast, ?_⟩
    simp [hin] at hcount ⊢
    omega

theorem balanced_tokens_iff : Balanced group.tokens ↔ Balanced (group.replaceBy value) := by
  have ho := @count_opening_tokens group value
  have hc := @count_closing_tokens group value
  have hio : group.inside.count .opening = 0 := List.count_eq_zero.2 h.opening_inside
  have hic : group.inside.count .closing = 0 := List.count_eq_zero.2 h.closing_inside
  rw [balanced_iff, balanced_iff, unclosed_tokens_iff h value]
  refine and_congr_right fun _ => ?_
  omega

theorem unopened_tokens_iff : Unopened group.tokens ↔ Unopened (group.replaceBy value) := by
  have ho := @count_opening_tokens group value
  have hc := @count_closing_tokens group value
  have hio : group.inside.count .opening = 0 := List.count_eq_zero.2 h.opening_inside
  have hic : group.inside.count .closing = 0 := List.count_eq_zero.2 h.closing_inside
  have hu := unclosed_tokens_iff h value
  constructor
  · rintro ⟨hclosed, htotal⟩
    exact ⟨fun hn => hclosed (hu.2 hn), by omega⟩
  · rintro ⟨hclosed, htotal⟩
    exact ⟨fun hn => hclosed (hu.1 hn), by omega⟩

end

/-! ## The groups that are worked out -/

theorem Group.IsLast.eq {group other : Group} (h : group.IsLast) (ho : other.IsLast)
    (htokens : group.tokens = other.tokens) : group = other := by
  have hlast := Group.last?_tokens h
  rw [htokens, Group.last?_tokens ho] at hlast
  cases hlast
  rfl

theorem not_worksOut {tokens contents : List Token} (h : Token.opening ∉ tokens) :
    ¬ WorksOut tokens contents := by
  intro hw
  cases hw <;> simp [Group.tokens] at h

theorem worksOut_tokens_iff {group : Group} (h : group.IsLast) {contents : List Token} :
    WorksOut group.tokens contents ↔ contents = group.inside ∨
      ∃ value, groupValue group.inside = .ok value ∧ WorksOut (group.replaceBy value) contents := by
  constructor
  · intro hw
    generalize htokens : group.tokens = tokens at hw
    cases hw with
    | last ho =>
      rw [h.eq ho htokens]
      exact Or.inl rfl
    | later ho hvalue hlater =>
      rw [h.eq ho htokens]
      exact Or.inr ⟨_, hvalue, hlater⟩
  · rintro (rfl | ⟨value, hvalue, hlater⟩)
    · exact .last h
    · exact .later h hvalue hlater

/-! ## The verdict -/

/-- What collapsing the groups of some tokens comes to, and why. -/
inductive Verdict (tokens : List Token) : Except Error (List Token) → Prop
  | collapsed {flat : List Token} (h : Balanced tokens) (ho : Token.opening ∉ flat)
      (hc : Token.closing ∉ flat) : Verdict tokens (.ok flat)
  | unclosed (h : Unclosed tokens) : Verdict tokens (.error (.unmatched '('))
  | unopened (h : Unopened tokens) : Verdict tokens (.error (.unmatched ')'))
  | withoutValue {contents : List Token} {error : Error} (h : WorksOut tokens contents)
      (hvalue : groupValue contents = .error error) : Verdict tokens (.error error)

theorem Verdict.tokens_of_replaceBy {group : Group} (h : group.IsLast) {value : Number}
    (hvalue : groupValue group.inside = .ok value) {outcome : Except Error (List Token)}
    (hverdict : Verdict (group.replaceBy value) outcome) : Verdict group.tokens outcome := by
  cases hverdict with
  | collapsed hb ho hc => exact .collapsed ((balanced_tokens_iff h value).2 hb) ho hc
  | unclosed hu => exact .unclosed ((unclosed_tokens_iff h value).2 hu)
  | unopened hu => exact .unopened ((unopened_tokens_iff h value).2 hu)
  | withoutValue hw hv => exact .withoutValue (.later h hvalue hw) hv

theorem verdict_flat {tokens : List Token} (h : Token.opening ∉ tokens) :
    Verdict tokens (collapseGroups tokens).outcome := by
  have hnone : tokens.count .opening = 0 := List.count_eq_zero.2 h
  have hclosed : ¬ Unclosed tokens := by
    rintro ⟨behind, hbehind, hcount⟩
    have := hbehind.sublist.count_le .opening
    omega
  rw [collapseGroups_flat h]
  by_cases hc : Token.closing ∈ tokens
  · rw [if_pos hc]
    have := List.count_pos_iff.2 hc
    exact .unopened ⟨hclosed, by omega⟩
  · rw [if_neg hc]
    exact .collapsed (balanced_iff.2 ⟨hclosed, by rw [hnone, List.count_eq_zero.2 hc]⟩) h hc

theorem verdict (tokens : List Token) : Verdict tokens (collapseGroups tokens).outcome := by
  induction tokens using Group.induction with
  | flat tokens h => exact verdict_flat h
  | unclosed before after ho hc =>
    rw [collapseGroups_unclosed before ho hc]
    refine .unclosed ⟨.opening :: after, List.suffix_append .., ?_⟩
    simp [List.count_eq_zero.2 hc]
  | last group h ih =>
    rw [outcome_collapseGroups_group h]
    cases hvalue : groupValue group.inside with
    | error error => exact .withoutValue (.last h) hvalue
    | ok value => exact (ih value).tokens_of_replaceBy h hvalue

theorem balanced_of_collapseGroups {tokens flat : List Token}
    (h : (collapseGroups tokens).outcome = .ok flat) : Balanced tokens := by
  have hverdict := verdict tokens
  rw [h] at hverdict
  cases hverdict with
  | collapsed hb => exact hb

theorem groupValue_ne_unmatched (contents : List Token) (parenthesis : Char) :
    groupValue contents ≠ .error (.unmatched parenthesis) := by
  intro h
  rcases error_of_valueOfFlat h with he | he <;> cases he

theorem Verdict.unclosed_of_unmatched {tokens : List Token}
    (h : Verdict tokens (.error (.unmatched '('))) : Unclosed tokens := by
  cases h with
  | unclosed hu => exact hu
  | withoutValue _ hvalue => exact absurd hvalue (groupValue_ne_unmatched _ _)

theorem Verdict.unopened_of_unmatched {tokens : List Token}
    (h : Verdict tokens (.error (.unmatched ')'))) : Unopened tokens := by
  cases h with
  | unopened hu => exact hu
  | withoutValue _ hvalue => exact absurd hvalue (groupValue_ne_unmatched _ _)

theorem Verdict.eq_or_eq_of_unmatched {tokens : List Token} {parenthesis : Char}
    (h : Verdict tokens (.error (.unmatched parenthesis))) :
    parenthesis = '(' ∨ parenthesis = ')' := by
  cases h with
  | unclosed => exact Or.inl rfl
  | unopened => exact Or.inr rfl
  | withoutValue _ hvalue => exact absurd hvalue (groupValue_ne_unmatched _ _)

/-- If every group that is worked out has a value, the parentheses alone decide. -/
theorem Verdict.iff_of_values {tokens : List Token} {outcome : Except Error (List Token)}
    (h : Verdict tokens outcome)
    (hvalues : ∀ contents, WorksOut tokens contents → ∃ value, groupValue contents = .ok value) :
    ((∃ flat, outcome = .ok flat) ↔ Balanced tokens) ∧
      (outcome = .error (.unmatched '(') ↔ Unclosed tokens) ∧
      (outcome = .error (.unmatched ')') ↔ Unopened tokens) := by
  cases h with
  | collapsed hb => simp [hb, hb.not_unclosed, hb.not_unopened]
  | unclosed hu =>
    have hb : ¬ Balanced tokens := fun hb => hb.not_unclosed hu
    have hc : ¬ Unopened tokens := fun hc => hc.closed hu
    simp [hu, hb, hc]
  | unopened hu =>
    have hb : ¬ Balanced tokens := fun hb => hb.not_unopened hu
    simp [hu, hb, hu.closed]
  | withoutValue hw hvalue =>
    obtain ⟨value, hv⟩ := hvalues _ hw
    rw [hv] at hvalue
    cases hvalue

theorem outcome_collapseGroups_of_unmatched {tokens : List Token} {parenthesis : Char}
    (h : (valueOf tokens).outcome = .error (.unmatched parenthesis)) :
    (collapseGroups tokens).outcome = .error (.unmatched parenthesis) := by
  rw [outcome_valueOf] at h
  rcases bind_eq_error.1 h with hcollapse | ⟨flat, -, hflat⟩
  · exact hcollapse
  · rcases error_of_valueOfFlat hflat with he | he <;> cases he

/-- **Parentheses.** The result has no parentheses and is there only if those of the tokens are
balanced. An opening parenthesis without partner is reported only if there is one, a closing one only
if there are no opening ones. If no group on the way is without value, one of the three happens just
when it can. -/
theorem outcome_collapseGroups_parentheses (tokens : List Token) :
    (∀ flat, (collapseGroups tokens).outcome = .ok flat →
      Balanced tokens ∧ Token.opening ∉ flat ∧ Token.closing ∉ flat) ∧
    ((collapseGroups tokens).outcome = .error (.unmatched '(') → Unclosed tokens) ∧
    ((collapseGroups tokens).outcome = .error (.unmatched ')') → Unopened tokens) ∧
    ((∀ contents, WorksOut tokens contents → ∃ value, groupValue contents = .ok value) →
      ((∃ flat, (collapseGroups tokens).outcome = .ok flat) ↔ Balanced tokens) ∧
      ((collapseGroups tokens).outcome = .error (.unmatched '(') ↔ Unclosed tokens) ∧
      ((collapseGroups tokens).outcome = .error (.unmatched ')') ↔ Unopened tokens)) ∧
    (Balanced tokens ∨ Unclosed tokens ∨ Unopened tokens) ∧
    (¬ (Balanced tokens ∧ Unclosed tokens) ∧ ¬ (Balanced tokens ∧ Unopened tokens) ∧
      ¬ (Unclosed tokens ∧ Unopened tokens)) ∧
    (¬ Balanced tokens → ∀ value, (valueOf tokens).outcome ≠ .ok value) ∧
    ∀ parenthesis, (valueOf tokens).outcome = .error (.unmatched parenthesis) → Unclosed tokens →
      parenthesis = '(' := by
  have h := verdict tokens
  refine ⟨?collapsed, fun he => (he ▸ h).unclosed_of_unmatched,
    fun he => (he ▸ h).unopened_of_unmatched, h.iff_of_values,
    balanced_or_unclosed_or_unopened tokens, ?disjoint, ?value, ?both⟩
  case collapsed =>
    intro flat hflat
    rw [hflat] at h
    cases h with
    | collapsed hb ho hc => exact ⟨hb, ho, hc⟩
  case disjoint =>
    exact ⟨fun hn => hn.1.not_unclosed hn.2, fun hn => hn.1.not_unopened hn.2,
      fun hn => hn.2.closed hn.1⟩
  case value =>
    intro hb value hvalue
    rw [outcome_valueOf] at hvalue
    obtain ⟨flat, hflat, -⟩ := bind_eq_ok.1 hvalue
    rw [hflat] at h
    cases h with
    | collapsed hb' => exact hb hb'
  case both =>
    intro parenthesis herror hu
    rw [outcome_collapseGroups_of_unmatched herror] at h
    rcases h.eq_or_eq_of_unmatched with rfl | rfl
    · rfl
    · exact absurd hu h.unopened_of_unmatched.closed

/-- In `(- 2))` the one group has a value, and the last parenthesis no partner. -/
theorem outcome_collapseGroups_surplus_closing :
    (∀ contents, WorksOut [.opening, .operator .sub, .number 2, .closing, .closing] contents →
      ∃ value, groupValue contents = .ok value) ∧
    (collapseGroups [.opening, .operator .sub, .number 2, .closing, .closing]).outcome =
      .error (.unmatched ')') := by
  have hlast : Group.IsLast ⟨[], [.operator .sub, .number 2], [.closing]⟩ :=
    ⟨by decide, by decide, by decide⟩
  have hvalue : groupValue [.operator .sub, .number 2] = .ok (-2) := by decide +kernel
  have hvalues : ∀ contents, WorksOut [.opening, .operator .sub, .number 2, .closing, .closing]
      contents → ∃ value, groupValue contents = .ok value := by
    intro contents hw
    rcases (worksOut_tokens_iff hlast).1 hw with rfl | ⟨value, -, hlater⟩
    · exact ⟨-2, hvalue⟩
    · exact absurd hlater (not_worksOut (by simp [Group.replaceBy]))
  have hdecided := (outcome_collapseGroups_parentheses _).2.2.2.1 hvalues
  exact ⟨hvalues, hdecided.2.2.2 (by decide)⟩

end Calculator
