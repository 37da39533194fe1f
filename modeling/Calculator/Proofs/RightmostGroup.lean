import Calculator.Proofs.Outcome

/-!
# The right-most group

Any tokens have no opening parenthesis, or one behind which nothing closes it, or a right-most group
(`Group.view`). What `collapseGroups` does is determined by which of the three holds, and
`Group.induction` is the induction along its steps.
-/

namespace Calculator

theorem Token.isOpening_iff {token : Token} : token.isOpening = true ↔ token = .opening := by
  cases token <;> simp [isOpening]

theorem Token.isClosing_iff {token : Token} : token.isClosing = true ↔ token = .closing := by
  cases token <;> simp [isClosing]

namespace Group

/-- No parenthesis is inside the group and no opening one behind it. -/
structure IsLast (group : Group) : Prop where
  opening_inside : Token.opening ∉ group.inside
  closing_inside : Token.closing ∉ group.inside
  opening_behind : Token.opening ∉ group.behind

/-- What the last opening parenthesis of some tokens can be. -/
inductive View : List Token → Prop
  | flat {tokens : List Token} (h : Token.opening ∉ tokens) : View tokens
  | unclosed (before : List Token) {after : List Token} (ho : Token.opening ∉ after)
      (hc : Token.closing ∉ after) : View (before ++ .opening :: after)
  | last {group : Group} (h : group.IsLast) : View group.tokens

theorem opening_mem_or_split (tokens : List Token) : Token.opening ∉ tokens ∨
    ∃ before after, tokens = before ++ .opening :: after ∧ Token.opening ∉ after := by
  induction tokens with
  | nil => exact Or.inl (List.not_mem_nil)
  | cons token rest ih =>
    rcases ih with hno | ⟨before, after, rfl, ha⟩
    · by_cases ht : token = .opening
      · subst ht; exact Or.inr ⟨[], rest, rfl, hno⟩
      · refine Or.inl fun hm => ?_
        rcases List.mem_cons.1 hm with h | h
        · exact ht h.symm
        · exact hno h
    · exact Or.inr ⟨token :: before, after, rfl, ha⟩

theorem view (tokens : List Token) : View tokens := by
  rcases opening_mem_or_split tokens with hno | ⟨before, after, rfl, ha⟩
  · exact .flat hno
  · by_cases hc : Token.closing ∈ after
    · obtain ⟨inside, behind, rfl, hi⟩ := List.eq_append_cons_of_mem hc
      simp only [List.mem_append, List.mem_cons, not_or] at ha
      exact @View.last ⟨before, inside, behind⟩ ⟨ha.1, hi, ha.2.2⟩
    · exact .unclosed before ha hc

theorem splitAtLastOpening?_eq_none {tokens : List Token} (h : Token.opening ∉ tokens) :
    splitAtLastOpening? tokens = none := by
  induction tokens with
  | nil => rfl
  | cons token rest ih =>
    simp only [List.mem_cons, not_or] at h
    have ht : token.isOpening = false :=
      Bool.eq_false_iff.2 fun ho => h.1 (Token.isOpening_iff.1 ho).symm
    simp [splitAtLastOpening?, ih h.2, ht]

theorem splitAtLastOpening?_append (before : List Token) {after : List Token}
    (h : Token.opening ∉ after) :
    splitAtLastOpening? (before ++ .opening :: after) = some (before, after) := by
  induction before with
  | nil => simp [splitAtLastOpening?, splitAtLastOpening?_eq_none h, Token.isOpening]
  | cons token before ih => simp [splitAtLastOpening?, ih]

theorem splitAtFirstClosing?_eq_none {tokens : List Token} (h : Token.closing ∉ tokens) :
    splitAtFirstClosing? tokens = none := by
  induction tokens with
  | nil => rfl
  | cons token rest ih =>
    simp only [List.mem_cons, not_or] at h
    have ht : token.isClosing = false :=
      Bool.eq_false_iff.2 fun hc => h.1 (Token.isClosing_iff.1 hc).symm
    simp [splitAtFirstClosing?, ih h.2, ht]

theorem splitAtFirstClosing?_append {inside : List Token} (behind : List Token)
    (h : Token.closing ∉ inside) :
    splitAtFirstClosing? (inside ++ .closing :: behind) = some (inside, behind) := by
  induction inside with
  | nil => simp [splitAtFirstClosing?, Token.isClosing]
  | cons token inside ih =>
    simp only [List.mem_cons, not_or] at h
    have ht : token.isClosing = false :=
      Bool.eq_false_iff.2 fun hc => h.1 (Token.isClosing_iff.1 hc).symm
    simp [splitAtFirstClosing?, ih h.2, ht]

theorem any_isClosing (tokens : List Token) :
    tokens.any Token.isClosing = decide (Token.closing ∈ tokens) := by
  rw [Bool.eq_iff_iff, List.any_eq_true, decide_eq_true_iff]
  constructor
  · rintro ⟨token, hm, hc⟩
    rwa [← Token.isClosing_iff.1 hc]
  · intro hm
    exact ⟨.closing, hm, rfl⟩

theorem last?_flat {tokens : List Token} (h : Token.opening ∉ tokens) :
    last? tokens = if Token.closing ∈ tokens then .error (.unmatched ')') else .ok none := by
  simp [last?, splitAtLastOpening?_eq_none h, any_isClosing]

theorem last?_unclosed (before : List Token) {after : List Token} (ho : Token.opening ∉ after)
    (hc : Token.closing ∉ after) :
    last? (before ++ .opening :: after) = .error (.unmatched '(') := by
  simp [last?, splitAtLastOpening?_append before ho, splitAtFirstClosing?_eq_none hc]

theorem last?_tokens {group : Group} (h : group.IsLast) :
    last? group.tokens = .ok (some group) := by
  have ho : Token.opening ∉ group.inside ++ .closing :: group.behind := by
    simp [h.opening_inside, h.opening_behind]
  simp [last?, tokens, splitAtLastOpening?_append group.before ho,
    splitAtFirstClosing?_append group.behind h.closing_inside]

theorem last?_eq_some_iff {tokens : List Token} {group : Group} :
    last? tokens = .ok (some group) ↔ group.IsLast ∧ group.tokens = tokens := by
  constructor
  · intro h
    refine ⟨?_, tokens_of_last? h⟩
    cases view tokens with
    | flat ho =>
      rw [last?_flat ho] at h
      split at h <;> cases h
    | unclosed before ho hc =>
      rw [last?_unclosed before ho hc] at h
      cases h
    | last hlast =>
      rw [last?_tokens hlast] at h
      cases h
      exact hlast
  · rintro ⟨hlast, rfl⟩
    exact last?_tokens hlast

/-- No group is left when no opening parenthesis is, whether or not a closing one is. -/
theorem opening_not_mem_iff {tokens : List Token} : Token.opening ∉ tokens ↔
    last? tokens = .ok none ∨ last? tokens = .error (.unmatched ')') := by
  cases view tokens with
  | flat h =>
    rw [last?_flat h]
    split <;> simp [h]
  | unclosed before ho hc =>
    rw [last?_unclosed before ho hc]
    simp
  | last h =>
    rw [last?_tokens h]
    simp [tokens]

/-- A property holds of all tokens if it holds where nothing is left to collapse, and of tokens with
a right-most group once it does whatever number replaces the group. -/
@[elab_as_elim]
theorem induction {motive : List Token → Prop} (tokens : List Token)
    (flat : ∀ tokens, Token.opening ∉ tokens → motive tokens)
    (unclosed : ∀ before after, Token.opening ∉ after → Token.closing ∉ after →
      motive (before ++ .opening :: after))
    (last : ∀ group : Group, group.IsLast → (∀ value, motive (group.replaceBy value)) →
      motive group.tokens) : motive tokens := by
  cases view tokens with
  | flat h => exact flat tokens h
  | unclosed before ho hc => exact unclosed before _ ho hc
  | @last group h =>
    refine last group h fun value => ?_
    exact induction (group.replaceBy value) flat unclosed last
termination_by tokens.length
decreasing_by exact group.length_replaceBy_lt value

end Group

/-! ## Steps of the collapse -/

theorem collapseGroups_flat {tokens : List Token} (h : Token.opening ∉ tokens) :
    (collapseGroups tokens).outcome =
      if Token.closing ∈ tokens then .error (.unmatched ')') else .ok tokens := by
  have hl := Group.last?_flat h
  by_cases hc : Token.closing ∈ tokens
  · rw [if_pos hc] at hl ⊢
    rw [collapseGroups_of_error hl]; rfl
  · rw [if_neg hc] at hl ⊢
    rw [collapseGroups_of_none hl]; rfl

theorem collapseGroups_unclosed (before : List Token) {after : List Token}
    (ho : Token.opening ∉ after) (hc : Token.closing ∉ after) :
    (collapseGroups (before ++ .opening :: after)).outcome = .error (.unmatched '(') := by
  rw [collapseGroups_of_error (Group.last?_unclosed before ho hc)]; rfl

theorem outcome_collapseGroups_tokens {group : Group} (h : group.IsLast) :
    (collapseGroups group.tokens).outcome =
      (valueOfFlat (absorbSigns group.inside)).outcome >>= fun value =>
        (collapseGroups (group.replaceBy value)).outcome := by
  rw [collapseGroups_of_some (Group.last?_tokens h), Journaled.outcome_bind]
  rfl

/-- Tokens without groups come to a value or a division by zero only if they are those of a chain. -/
theorem exists_chain_of_arithmetic {tokens : List Token} (ho : Token.opening ∉ tokens)
    (h : Arithmetic (valueOf tokens).outcome) : ∃ chain : Chain, tokens = chain.toTokens := by
  rw [outcome_valueOf, collapseGroups_flat ho] at h
  by_cases hc : Token.closing ∈ tokens
  · rw [if_pos hc] at h
    cases h _ rfl
  · rw [if_neg hc, ok_bind, outcome_valueOfFlat] at h
    cases hchain : Chain.ofTokens tokens with
    | ok chain => exact ⟨chain, ofTokens_eq_ok_iff.1 hchain⟩
    | error error =>
      rw [hchain, malformed_of_ofTokens hchain] at h
      cases h _ rfl

theorem Chain.not_mem_toTokens (chain : Chain) :
    Token.opening ∉ chain.toTokens ∧ Token.closing ∉ chain.toTokens := by
  simp [toTokens, linkTokens]

theorem Chain.outcome_valueOf (chain : Chain) :
    (valueOf chain.toTokens).outcome = chain.value.outcome := by
  obtain ⟨ho, hc⟩ := chain.not_mem_toTokens
  rw [Calculator.outcome_valueOf, collapseGroups_flat ho, if_neg hc, ok_bind,
    outcome_valueOfFlat_toTokens]

end Calculator
