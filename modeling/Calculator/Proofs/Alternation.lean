import Calculator.Proofs.Outcome

/-!
# Numbers and operators by turns

`ofTokens_inverse`: the tokens that are read as a chain are those that it is written with, and these are
just the tokens in which numbers and operators take turns, a number being the first and the last.
-/

namespace Calculator

/-- Numbers have the even indexes, operators the odd ones. -/
def Token.hasTurn (index : Nat) (token : Token) : Bool :=
  if index % 2 = 0 then token.isNumber else token.operator?.isSome

structure Alternates (tokens : List Token) : Prop where
  odd : tokens.length % 2 = 1
  turns : ∀ index (token : Token), tokens[index]? = some token → token.hasTurn index = true

theorem Token.hasTurn_add_two (index : Nat) (token : Token) :
    token.hasTurn (index + 2) = token.hasTurn index := by
  rw [hasTurn, Nat.add_mod_right, hasTurn]

theorem Token.isNumber_iff {token : Token} :
    token.isNumber = true ↔ ∃ value, token = .number value := by
  cases token <;> simp [isNumber]

theorem Token.isSome_operator?_iff {token : Token} :
    token.operator?.isSome = true ↔ ∃ op, token = .operator op := by
  cases token <;> simp [operator?]

/-! ## Two by two -/

theorem not_alternates_nil : ¬ Alternates [] := by
  intro h
  cases h.odd

theorem alternates_singleton_iff {token : Token} :
    Alternates [token] ↔ token.isNumber = true := by
  constructor
  · intro h
    exact h.turns 0 token rfl
  · intro h
    refine ⟨rfl, fun index other hother => ?_⟩
    cases index with
    | zero =>
      cases hother
      exact h
    | succ index => cases hother

theorem alternates_cons_cons_iff {first second : Token} {rest : List Token} :
    Alternates (first :: second :: rest) ↔
      first.isNumber = true ∧ second.operator?.isSome = true ∧ Alternates rest := by
  constructor
  · rintro ⟨hodd, hturns⟩
    refine ⟨hturns 0 first rfl, hturns 1 second rfl, ?odd, fun index token htoken => ?turns⟩
    case odd =>
      simp only [List.length_cons] at hodd
      omega
    case turns =>
      rw [← token.hasTurn_add_two]
      exact hturns (index + 2) token htoken
  · rintro ⟨hfirst, hsecond, hodd, hturns⟩
    refine ⟨?_, fun index token htoken => ?_⟩
    · simp only [List.length_cons]
      omega
    · match index, htoken with
      | 0, htoken =>
        cases htoken
        exact hfirst
      | 1, htoken =>
        cases htoken
        exact hsecond
      | index + 2, htoken =>
        rw [token.hasTurn_add_two]
        exact hturns index token htoken

/-! ## Chains -/

theorem Chain.alternates_toTokens (chain : Chain) : Alternates chain.toTokens := by
  obtain ⟨first, links⟩ := chain
  induction links generalizing first with
  | nil => exact alternates_singleton_iff.2 rfl
  | cons link links ih => exact alternates_cons_cons_iff.2 ⟨rfl, rfl, ih link.2⟩

theorem Alternates.exists_chain : ∀ {tokens : List Token}, Alternates tokens →
    ∃ chain : Chain, tokens = chain.toTokens
  | [], h => absurd h not_alternates_nil
  | [token], h => by
    obtain ⟨value, rfl⟩ := Token.isNumber_iff.1 (alternates_singleton_iff.1 h)
    exact ⟨⟨value, []⟩, rfl⟩
  | first :: second :: rest, h => by
    obtain ⟨hfirst, hsecond, hrest⟩ := alternates_cons_cons_iff.1 h
    obtain ⟨value, rfl⟩ := Token.isNumber_iff.1 hfirst
    obtain ⟨op, rfl⟩ := Token.isSome_operator?_iff.1 hsecond
    obtain ⟨chain, rfl⟩ := hrest.exists_chain
    exact ⟨⟨value, (op, chain.first) :: chain.links⟩, rfl⟩

theorem exists_chain_iff {tokens : List Token} :
    (∃ chain : Chain, tokens = chain.toTokens) ↔ Alternates tokens := by
  constructor
  · rintro ⟨chain, rfl⟩
    exact chain.alternates_toTokens
  · exact Alternates.exists_chain

/-- **Reading a chain inverts writing it.** No token is lost in the pairs: what is read as a chain is
written as the same tokens again, and a chain is read again from the tokens it is written as. All other
tokens are malformed, those in which numbers and operators do not take turns. -/
theorem ofTokens_inverse (tokens : List Token) :
    (∀ chain, Chain.ofTokens tokens = .ok chain ↔ tokens = chain.toTokens) ∧
    (Chain.ofTokens tokens = .error .malformed ↔ ∀ chain : Chain, tokens ≠ chain.toTokens) ∧
    ((∃ chain, Chain.ofTokens tokens = .ok chain) ↔ Alternates tokens) := by
  have hok : ∀ chain, Chain.ofTokens tokens = .ok chain ↔ tokens = chain.toTokens :=
    fun chain => ofTokens_eq_ok_iff
  refine ⟨hok, ⟨?_, ?_⟩, ?_⟩
  · intro herror chain hchain
    rw [(hok chain).2 hchain] at herror
    cases herror
  · intro hno
    cases h : Chain.ofTokens tokens with
    | ok chain => exact absurd ((hok chain).1 h) (hno chain)
    | error error => rw [malformed_of_ofTokens h]
  · rw [← exists_chain_iff]
    exact exists_congr hok

end Calculator
