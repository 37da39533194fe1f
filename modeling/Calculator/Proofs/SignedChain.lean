import Calculator.Proofs.Collapse

/-!
# Signed chains

In a group, a sign may stand apart from its number. `ofTokens?_absorbSigns_iff`: the tokens that are
those of a chain once their signs are joined are operands with operators between them, and an operand
is a number or a sign and a number without sign bit.
-/

namespace Calculator

inductive Operand : List Token → Number → Prop
  | number (value : Number) : Operand [.number value] value
  | signed {op : Operator} {sign : Sign} {value : Number} (hsign : op.sign? = some sign)
      (hvalue : value.isNegative = false) :
      Operand [.operator op, .number value] (sign.apply value)

/-- Operators, each with an operand behind it. -/
inductive SignedLinks : List Token → List (Operator × Number) → Prop
  | nil : SignedLinks [] []
  | cons {op : Operator} {operand tokens : List Token} {value : Number}
      {links : List (Operator × Number)} (hoperand : Operand operand value)
      (h : SignedLinks tokens links) :
      SignedLinks (.operator op :: (operand ++ tokens)) ((op, value) :: links)

inductive SignedChain : List Token → Chain → Prop
  | intro {operand tokens : List Token} {first : Number} {links : List (Operator × Number)}
      (hoperand : Operand operand first) (h : SignedLinks tokens links) :
      SignedChain (operand ++ tokens) ⟨first, links⟩

theorem SignedChain.link {tokens : List Token} {chain : Chain} (h : SignedChain tokens chain)
    (op : Operator) : SignedLinks (.operator op :: tokens) ((op, chain.first) :: chain.links) := by
  cases h with
  | intro hoperand hlinks => exact .cons hoperand hlinks

theorem signedLinks_flatMap (links : List (Operator × Number)) :
    SignedLinks (links.flatMap Chain.linkTokens) links := by
  induction links with
  | nil => exact .nil
  | cons link links ih => exact .cons (.number link.2) ih

theorem signedChain_toTokens (chain : Chain) : SignedChain chain.toTokens chain :=
  .intro (.number chain.first) (signedLinks_flatMap chain.links)

/-! ## Joining the signs -/

theorem absorbSignsAfter_operator {previous : Option Token}
    (h : Token.signMayFollow previous = false) (op : Operator) (rest : List Token) :
    absorbSignsAfter previous (.operator op :: rest) =
      .operator op :: absorbSignsAfter (some (.operator op)) rest := by
  cases rest with
  | nil => rfl
  | cons token rest =>
    cases token with
    | number value => simp [absorbSignsAfter, h]
    | operator op' => rfl
    | opening => rfl
    | closing => rfl

theorem Operand.absorbSignsAfter_append {operand : List Token} {value : Number}
    (hoperand : Operand operand value) {previous : Option Token}
    (h : Token.signMayFollow previous = true) (rest : List Token) :
    absorbSignsAfter previous (operand ++ rest) =
      .number value :: absorbSignsAfter (some (.number value)) rest := by
  cases hoperand with
  | number => rfl
  | signed hsign hvalue => simp [absorbSignsAfter, h, hvalue, hsign]

theorem SignedLinks.absorbSignsAfter_eq {tokens : List Token} {links : List (Operator × Number)}
    (hlinks : SignedLinks tokens links) {previous : Option Token}
    (h : Token.signMayFollow previous = false) :
    absorbSignsAfter previous tokens = links.flatMap Chain.linkTokens := by
  induction hlinks generalizing previous with
  | nil => rfl
  | cons hoperand hrest ih =>
    rw [absorbSignsAfter_operator h, hoperand.absorbSignsAfter_append rfl, ih rfl]
    rfl

theorem SignedChain.absorbSigns_eq {tokens : List Token} {chain : Chain}
    (h : SignedChain tokens chain) : absorbSigns tokens = chain.toTokens := by
  cases h with
  | intro hoperand hlinks =>
    rw [absorbSigns, hoperand.absorbSignsAfter_append rfl, hlinks.absorbSignsAfter_eq rfl]
    rfl

/-! ## Only signed chains become chains -/

namespace Chain

theorem ofTokens?_number (value : Number) (rest : List Token) :
    ofTokens? (.number value :: rest) = (linksOfTokens? rest).map (⟨value, ·⟩) := rfl

theorem linksOfTokens?_operator {op : Operator} {rest : List Token}
    {links : List (Operator × Number)} (h : linksOfTokens? (.operator op :: rest) = some links) :
    ∃ chain, ofTokens? rest = some chain ∧ links = (op, chain.first) :: chain.links := by
  cases rest with
  | nil => cases h
  | cons token rest =>
    cases token with
    | number value =>
      obtain ⟨others, hothers, rfl⟩ := Option.map_eq_some_iff.1 h
      exact ⟨⟨value, others⟩, by rw [ofTokens?_number, hothers]; rfl, rfl⟩
    | operator op' => cases h
    | opening => cases h
    | closing => cases h

end Chain

/-- Behind a number only links are read, and elsewhere only a chain. -/
theorem signed_of_absorbSignsAfter (previous : Option Token) (tokens : List Token) :
    (Token.signMayFollow previous = false →
      ∀ links, Chain.linksOfTokens? (absorbSignsAfter previous tokens) = some links →
        SignedLinks tokens links) ∧
    (Token.signMayFollow previous = true →
      ∀ chain, Chain.ofTokens? (absorbSignsAfter previous tokens) = some chain →
        SignedChain tokens chain) := by
  fun_induction absorbSignsAfter previous tokens with
  | case1 previous op value rest sign hsign signed ih =>
    constructor
    · intro hprevious
      simp [hprevious] at hsign
    · intro _ chain h
      rw [Chain.ofTokens?_number] at h
      obtain ⟨links, hlinks, rfl⟩ := Option.map_eq_some_iff.1 h
      split at hsign
      · rename_i hcond
        simp only [Bool.and_eq_true, Bool.not_eq_true'] at hcond
        exact .intro (.signed hsign hcond.2) (ih.1 rfl links hlinks)
      · cases hsign
  | case2 previous op value rest hnone ih =>
    constructor
    · intro _ links h
      obtain ⟨chain, hchain, rfl⟩ := Chain.linksOfTokens?_operator h
      exact (ih.2 rfl chain hchain).link op
    · intro _ chain h
      cases h
  | case3 previous token rest hpair ih =>
    constructor
    · intro _ links h
      cases token with
      | operator op =>
        obtain ⟨chain, hchain, rfl⟩ := Chain.linksOfTokens?_operator h
        exact (ih.2 rfl chain hchain).link op
      | number value => cases h
      | opening => cases h
      | closing => cases h
    · intro _ chain h
      cases token with
      | number value =>
        rw [Chain.ofTokens?_number] at h
        obtain ⟨links, hlinks, rfl⟩ := Option.map_eq_some_iff.1 h
        exact .intro (.number value) (ih.1 rfl links hlinks)
      | operator op => cases h
      | opening => cases h
      | closing => cases h
  | case4 previous =>
    constructor
    · intro _ links h
      cases h
      exact .nil
    · intro _ chain h
      cases h

theorem ofTokens?_absorbSigns_iff {tokens : List Token} {chain : Chain} :
    Chain.ofTokens? (absorbSigns tokens) = some chain ↔ SignedChain tokens chain := by
  constructor
  · intro h
    exact (signed_of_absorbSignsAfter none tokens).2 rfl chain h
  · intro h
    rw [h.absorbSigns_eq, Chain.ofTokens?_eq_some_iff]

/-! ## Values of groups -/

theorem groupValue_of_signedChain {flat : List Token} {chain : Chain} (h : SignedChain flat chain) :
    groupValue flat = chain.value.outcome := by
  rw [groupValue, h.absorbSigns_eq, outcome_valueOfFlat_toTokens]

theorem exists_signedChain_of_groupValue {flat : List Token} {value : Number}
    (h : groupValue flat = .ok value) :
    ∃ chain, SignedChain flat chain ∧ chain.value.outcome = .ok value := by
  obtain ⟨chain, htokens, hvalue⟩ := exists_chain_of_valueOfFlat h
  exact ⟨chain, ofTokens?_absorbSigns_iff.1 (Chain.ofTokens?_eq_some_iff.2 htokens), hvalue⟩

end Calculator
