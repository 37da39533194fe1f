import Calculator.Proofs.Rendering
import Calculator.Proofs.SignedChain

/-!
# Values of rendered tokens

In the text of some tokens, signs that stood apart from their numbers are read as parts of them. If
the tokens have a value, there are such signs only in groups, and there they are joined to their
numbers in any case. `outcome_evaluate_text`: the text has the same value.
-/

namespace Calculator

/-! ## Joined signs -/

namespace Joins

theorem congr {previous previous' : Option Token} {tokens joined : List Token}
    (hprevious : Token.signMayFollow previous = Token.signMayFollow previous')
    (h : Joins previous tokens joined) : Joins previous' tokens joined := by
  cases h with
  | nil => exact .nil
  | keep h => exact .keep h
  | join hp hsign hvalue h => exact .join (hprevious ▸ hp) hsign hvalue h

/-- Where no sign may stand, the first token is kept. -/
theorem exists_cons {previous : Option Token} {token : Token} {tokens joined : List Token}
    (hprevious : Token.signMayFollow previous = false) (h : Joins previous (token :: tokens) joined) :
    ∃ joined', joined = token :: joined' ∧ Joins (some token) tokens joined' := by
  cases h with
  | keep h => exact ⟨_, rfl, h⟩
  | join hp => rw [hprevious] at hp; cases hp

section
variable {token : Token} (ht : token = .opening ∨ token = .closing)
include ht

theorem not_mem {previous : Option Token} {tokens joined : List Token}
    (h : Joins previous tokens joined) (hm : token ∉ tokens) : token ∉ joined := by
  induction h with
  | nil => exact hm
  | keep h ih =>
    simp only [List.mem_cons, not_or] at hm ⊢
    exact ⟨hm.1, ih hm.2⟩
  | join hprevious hsign hvalue h ih =>
    simp only [List.mem_cons, not_or] at hm ⊢
    refine ⟨?_, ih hm.2.2⟩
    rcases ht with rfl | rfl <;> simp

/-- No sign is joined to a number across a parenthesis. -/
theorem exists_append {previous : Option Token} {before behind joined : List Token}
    (h : Joins previous (before ++ token :: behind) joined) :
    ∃ before' behind', joined = before' ++ token :: behind' ∧ Joins previous before before' ∧
      Joins (some token) behind behind' := by
  generalize htokens : before ++ token :: behind = tokens at h
  induction h generalizing before with
  | nil => simp at htokens
  | keep h ih =>
    cases before with
    | nil =>
      cases htokens
      exact ⟨[], _, rfl, .nil, h⟩
    | cons first before =>
      cases htokens
      obtain ⟨before', behind', rfl, hbefore, hbehind⟩ := ih rfl
      exact ⟨_ :: before', behind', rfl, .keep hbefore, hbehind⟩
  | join hprevious hsign hvalue h ih =>
    match before, htokens with
    | [], htokens =>
      cases htokens
      rcases ht with ht | ht <;> cases ht
    | [first], htokens =>
      cases htokens
      rcases ht with ht | ht <;> cases ht
    | first :: second :: before, htokens =>
      cases htokens
      obtain ⟨before', behind', rfl, hbefore, hbehind⟩ := ih rfl
      exact ⟨_ :: before', behind', rfl, .join hprevious hsign hvalue hbefore, hbehind⟩

end

theorem append_cons {previous : Option Token} {before before' behind behind' : List Token}
    {token : Token} (h : Joins previous before before')
    (hbehind : Joins (some token) behind behind') :
    Joins previous (before ++ token :: behind) (before' ++ token :: behind') := by
  induction h with
  | nil => exact .keep hbehind
  | keep h ih => exact .keep ih
  | join hprevious hsign hvalue h ih => exact .join hprevious hsign hvalue ih

/-- Nothing is apart in the links of a chain. -/
theorem eq_of_links {previous : Option Token} {links : List (Operator × Number)}
    {joined : List Token} (hprevious : Token.signMayFollow previous = false)
    (h : Joins previous (links.flatMap Chain.linkTokens) joined) :
    joined = links.flatMap Chain.linkTokens := by
  induction links generalizing previous joined with
  | nil => cases h; rfl
  | cons link links ih =>
    simp only [List.flatMap_cons, Chain.linkTokens, List.cons_append, List.nil_append] at h ⊢
    obtain ⟨joined', rfl, hoperand⟩ := exists_cons hprevious h
    cases hoperand with
    | keep hrest => rw [ih rfl hrest]

theorem eq_of_chain {previous : Option Token} {chain : Chain} {joined : List Token}
    (h : Joins previous chain.toTokens joined) : joined = chain.toTokens := by
  cases h with
  | keep h => rw [eq_of_links rfl h]; rfl

end Joins

/-! ## Signed chains with joined signs -/

theorem Operand.of_joins {operand tokens joined : List Token} {value : Number}
    (hoperand : Operand operand value) {previous : Option Token}
    (h : Joins previous (operand ++ tokens) joined) :
    ∃ operand' joined', joined = operand' ++ joined' ∧ Operand operand' value ∧
      Joins (some (.number value)) tokens joined' := by
  cases hoperand with
  | number =>
    cases h with
    | keep h => exact ⟨[.number value], _, rfl, .number value, h⟩
  | signed hsign hvalue =>
    cases h with
    | keep h =>
      cases h with
      | keep h => exact ⟨[_, _], _, rfl, .signed hsign hvalue, h.congr (by rfl)⟩
    | join _ hsign' _ h =>
      rw [hsign] at hsign'
      cases hsign'
      exact ⟨[_], _, rfl, .number _, h⟩

theorem SignedLinks.of_joins {tokens joined : List Token} {links : List (Operator × Number)}
    (hlinks : SignedLinks tokens links) {previous : Option Token}
    (hprevious : Token.signMayFollow previous = false) (h : Joins previous tokens joined) :
    SignedLinks joined links := by
  induction hlinks generalizing previous joined with
  | nil => cases h; exact .nil
  | cons hoperand hrest ih =>
    obtain ⟨joined', rfl, hoperands⟩ := h.exists_cons hprevious
    obtain ⟨operand', joined', rfl, hoperand', hjoined⟩ := hoperand.of_joins hoperands
    exact .cons hoperand' (ih rfl hjoined)

theorem SignedChain.of_joins {tokens joined : List Token} {chain : Chain}
    (hchain : SignedChain tokens chain) {previous : Option Token} (h : Joins previous tokens joined) :
    SignedChain joined chain := by
  cases hchain with
  | intro hoperand hlinks =>
    obtain ⟨operand', joined', rfl, hoperand', hjoined⟩ := hoperand.of_joins h
    exact .intro hoperand' (hlinks.of_joins rfl hjoined)

/-! ## Values with joined signs -/

theorem exists_chain_of_valueOf {tokens : List Token} (ho : Token.opening ∉ tokens) {value : Number}
    (h : (valueOf tokens).outcome = .ok value) : ∃ chain : Chain, tokens = chain.toTokens :=
  exists_chain_of_arithmetic ho (h ▸ arithmetic_ok value)

theorem not_ok_of_unclosed (before : List Token) {after : List Token} (ho : Token.opening ∉ after)
    (hc : Token.closing ∉ after) (value : Number) :
    (valueOf (before ++ .opening :: after)).outcome ≠ .ok value := by
  rw [outcome_valueOf, collapseGroups_unclosed before ho hc]
  simp

theorem outcome_valueOf_of_joins {tokens joined : List Token} (h : Joins none tokens joined)
    {value : Number} (hvalue : (valueOf tokens).outcome = .ok value) :
    (valueOf joined).outcome = .ok value := by
  induction tokens using Group.induction generalizing joined with
  | flat tokens ho =>
    obtain ⟨chain, rfl⟩ := exists_chain_of_valueOf ho hvalue
    rw [h.eq_of_chain, hvalue]
  | unclosed before after ho hc => exact absurd hvalue (not_ok_of_unclosed before ho hc value)
  | last group hlast ih =>
    obtain ⟨before, inside, behind⟩ := group
    rw [outcome_valueOf_group hlast] at hvalue
    obtain ⟨number, hnumber, hrest⟩ := bind_eq_ok.1 hvalue
    obtain ⟨chain, hchain, hchainvalue⟩ := exists_signedChain_of_groupValue hnumber
    obtain ⟨before', joined', rfl, hbefore, hjoined⟩ := Joins.exists_append (Or.inl rfl) h
    obtain ⟨inside', behind', rfl, hinside, hbehind⟩ := Joins.exists_append (Or.inr rfl) hjoined
    have hlast' : Group.IsLast ⟨before', inside', behind'⟩ :=
      ⟨hinside.not_mem (Or.inl rfl) hlast.opening_inside,
        hinside.not_mem (Or.inr rfl) hlast.closing_inside,
        hbehind.not_mem (Or.inl rfl) hlast.opening_behind⟩
    have hnumber' : groupValue inside' = .ok number := by
      rw [groupValue_of_signedChain (hchain.of_joins hinside), hchainvalue]
    have hjoined' := hbefore.append_cons (hbehind.congr (by rfl) : Joins (some (.number number)) _ _)
    have hstep := outcome_valueOf_group hlast'
    rw [hnumber', ok_bind] at hstep
    exact hstep.trans (ih number hjoined' hrest)

/-! ## Tokens with a value are apart -/

theorem Token.apart_parenthesis (token : Token) {parenthesis : Token}
    (h : parenthesis = .opening ∨ parenthesis = .closing) : token.Apart parenthesis := by
  rcases h with rfl | rfl <;> cases token <;> trivial

theorem isChain_cons_of_admitsSign {token : Token} {tokens : List Token}
    (htoken : token.admitsSign = true) (h : tokens.IsChain Token.Apart) :
    (token :: tokens).IsChain Token.Apart := by
  cases tokens with
  | nil => simp
  | cons next tokens =>
    refine List.isChain_cons_cons.2 ⟨?_, h⟩
    cases token with
    | operator op => trivial
    | opening => trivial
    | number value => cases htoken
    | closing => cases htoken

theorem isChain_closing_cons {value : Number} {tokens : List Token}
    (h : (Token.number value :: tokens).IsChain Token.Apart) :
    (Token.closing :: tokens).IsChain Token.Apart := by
  cases tokens with
  | nil => simp
  | cons next tokens =>
    rw [List.isChain_cons_cons] at h ⊢
    refine ⟨?_, h.2⟩
    cases next with
    | number value' => exact absurd h.1 id
    | operator op => trivial
    | opening => trivial
    | closing => trivial

theorem Operand.isChain_append {operand tokens : List Token} {value : Number}
    (hoperand : Operand operand value) (h : (Token.number value :: tokens).IsChain Token.Apart) :
    (operand ++ tokens).IsChain Token.Apart := by
  cases hoperand with
  | number => exact h
  | signed => exact isChain_cons_of_admitsSign rfl (isChain_number_cons h)

theorem SignedLinks.isChain {tokens : List Token} {links : List (Operator × Number)}
    (h : SignedLinks tokens links) (value : Number) :
    (Token.number value :: tokens).IsChain Token.Apart := by
  induction h generalizing value with
  | nil => simp
  | cons hoperand hrest ih =>
    refine List.isChain_cons_cons.2 ⟨trivial, ?_⟩
    exact isChain_cons_of_admitsSign rfl (hoperand.isChain_append (ih _))

theorem SignedChain.isChain {tokens : List Token} {chain : Chain} (h : SignedChain tokens chain) :
    tokens.IsChain Token.Apart := by
  cases h with
  | intro hoperand hlinks => exact hoperand.isChain_append (hlinks.isChain _)

theorem isChain_of_valueOf {tokens : List Token} {value : Number}
    (h : (valueOf tokens).outcome = .ok value) : tokens.IsChain Token.Apart := by
  induction tokens using Group.induction with
  | flat tokens ho =>
    obtain ⟨chain, rfl⟩ := exists_chain_of_valueOf ho h
    exact (signedChain_toTokens chain).isChain
  | unclosed before after ho hc => exact absurd h (not_ok_of_unclosed before ho hc value)
  | last group hlast ih =>
    rw [outcome_valueOf_group hlast] at h
    obtain ⟨number, hnumber, hrest⟩ := bind_eq_ok.1 h
    obtain ⟨chain, hchain, -⟩ := exists_signedChain_of_groupValue hnumber
    obtain ⟨hbefore, hbehind, -⟩ := List.isChain_append.1 (ih number hrest)
    have hclosed : (group.inside ++ .closing :: group.behind).IsChain Token.Apart := by
      refine List.isChain_append.2 ⟨hchain.isChain, isChain_closing_cons hbehind, ?_⟩
      intro x _ y hy
      cases hy
      exact x.apart_parenthesis (Or.inr rfl)
    refine List.isChain_append.2 ⟨hbefore, isChain_cons_of_admitsSign rfl hclosed, ?_⟩
    intro x _ y hy
    cases hy
    exact x.apart_parenthesis (Or.inl rfl)

/-! ## Evaluating the text -/

theorem outcome_evaluate_text_of_valueOf {tokens : List Token}
    (hfinite : ∀ value, Token.number value ∈ tokens → value.isFinite = true) {value : Number}
    (h : (valueOf tokens).outcome = .ok value) :
    (evaluate (Token.text tokens)).outcome = .ok value := by
  have hreads : Reads none (Token.text tokens).toList (absorbSigns tokens) := by
    rw [Token.text, String.toList_ofList]
    exact @reads_flatMap_spell none tokens hfinite (isChain_of_valueOf h)
  rw [outcome_evaluate_of_tokenize (tokenize_of_reads hreads)]
  exact outcome_valueOf_of_joins (joins_absorbSignsAfter none tokens) h

/-- **Rendering keeps values.** If some tokens have a value and their numbers are finite, their text
has that value; so has the text of the tokens of a text, even where it is read as other tokens. -/
theorem outcome_evaluate_text {tokens : List Token}
    (hfinite : ∀ value, Token.number value ∈ tokens → value.isFinite = true) (value : Number) :
    ((valueOf tokens).outcome = .ok value →
      (evaluate (Token.text tokens)).outcome = .ok value) ∧
    ∀ source, tokenize source = .ok tokens → (evaluate source).outcome = .ok value →
      (evaluate (Token.text tokens)).outcome = .ok value := by
  refine ⟨outcome_evaluate_text_of_valueOf hfinite, ?_⟩
  intro source hsource h
  rw [outcome_evaluate_of_tokenize hsource] at h
  exact outcome_evaluate_text_of_valueOf hfinite h

/-- The text of the tokens of `2*(- 3)` is `2*(-3)`, which has other tokens. -/
theorem outcome_evaluate_text_sign_apart :
    (∀ value, Token.number value ∈ [.number 2, .operator .mul, .opening, .operator .sub, .number 3,
        .closing] → value.isFinite = true) ∧
      tokenize "2*(- 3)" = .ok [.number 2, .operator .mul, .opening, .operator .sub, .number 3,
        .closing] ∧
      (evaluate "2*(- 3)").outcome = .ok (-6) ∧
      tokenize (Token.text [.number 2, .operator .mul, .opening, .operator .sub, .number 3,
        .closing]) = .ok [.number 2, .operator .mul, .opening, .number (-3), .closing] ∧
      (evaluate (Token.text [.number 2, .operator .mul, .opening, .operator .sub, .number 3,
        .closing])).outcome = .ok (-6) := by
  have hfinite : ∀ value, Token.number value ∈ [.number 2, .operator .mul, .opening, .operator .sub,
      .number 3, .closing] → value.isFinite = true := by
    simp only [List.mem_cons, Token.number.injEq, reduceCtorEq, List.not_mem_nil, false_or, or_false]
    rintro value (rfl | rfl) <;> decide +kernel
  have hsource : tokenize "2*(- 3)" = .ok [.number 2, .operator .mul, .opening, .operator .sub,
      .number 3, .closing] := by decide +kernel
  have hvalue : (evaluate "2*(- 3)").outcome = .ok (-6) := by decide +kernel
  refine ⟨hfinite, hsource, hvalue, by decide +kernel, ?_⟩
  exact (outcome_evaluate_text hfinite (-6)).2 "2*(- 3)" hsource hvalue

end Calculator
