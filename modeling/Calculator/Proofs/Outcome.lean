import Calculator.Evaluation

/-!
# Outcomes

What an evaluation comes to, apart from its journal.
-/

namespace Calculator

section
variable {α β γ : Type}

@[simp] theorem ok_bind (value : α) (next : α → Except Error β) :
    (Except.ok value >>= next) = next value := rfl

@[simp] theorem error_bind (error : Error) (next : α → Except Error β) :
    (Except.error error >>= next) = .error error := rfl

theorem bind_ok_right (outcome : Except Error α) : (outcome >>= fun value => .ok value) = outcome := by
  cases outcome <;> rfl

theorem bind_eq_ok {first : Except Error α} {next : α → Except Error β} {result : β} :
    first >>= next = .ok result ↔ ∃ value, first = .ok value ∧ next value = .ok result := by
  cases first <;> simp

theorem bind_eq_error {first : Except Error α} {next : α → Except Error β} {error : Error} :
    first >>= next = .error error ↔
      first = .error error ∨ ∃ value, first = .ok value ∧ next value = .error error := by
  cases first <;> simp

/-! ## Arithmetic -/

/-- The only error is a division by zero. -/
def Arithmetic (outcome : Except Error α) : Prop :=
  ∀ error, outcome = .error error → error = .divisionByZero

theorem arithmetic_ok (value : α) : Arithmetic (.ok value) := by
  intro error h
  cases h

theorem arithmetic_divisionByZero : Arithmetic (.error .divisionByZero : Except Error α) := by
  intro error h
  cases h
  rfl

theorem Arithmetic.bind {first : Except Error α} {next : α → Except Error β}
    (hfirst : Arithmetic first) (hnext : ∀ value, Arithmetic (next value)) :
    Arithmetic (first >>= next) := by
  intro error h
  rcases bind_eq_error.1 h with hf | ⟨value, -, hn⟩
  · exact hfirst error hf
  · exact hnext value error hn

/-- As there is only one error, it does not matter which of two results is worked out first. -/
theorem Arithmetic.bind_comm {first : Except Error α} {second : Except Error β}
    (hfirst : Arithmetic first) (hsecond : Arithmetic second) (next : α → β → Except Error γ) :
    (first >>= fun a => second >>= fun b => next a b) =
      (second >>= fun b => first >>= fun a => next a b) := by
  cases ha : first with
  | ok a => rfl
  | error ea =>
    cases hb : second with
    | ok b => rfl
    | error eb =>
      rw [hfirst ea ha, hsecond eb hb]
      rfl

end

theorem Operator.arithmetic_apply (op : Operator) (left right : Number) :
    Arithmetic (op.apply left right) := by
  intro error h
  cases op with
  | add => cases h
  | sub => cases h
  | mul => cases h
  | div =>
    simp only [apply] at h
    split at h
    · cases h; rfl
    · cases h

namespace Chain

theorem outcome_productsFrom_nil (first : Number) : (productsFrom first []).outcome = .ok ⟨first, []⟩ :=
  rfl

theorem outcome_productsFrom_multiplicative {op : Operator} (h : op.isMultiplicative = true)
    (first right : Number) (links : List (Operator × Number)) :
    (productsFrom first ((op, right) :: links)).outcome =
      op.apply first right >>= fun value => (productsFrom value links).outcome := by
  rw [productsFrom, if_pos h, Journaled.outcome_bind, Operator.outcome_perform]

theorem outcome_productsFrom_additive {op : Operator} (h : op.isMultiplicative = false)
    (first right : Number) (links : List (Operator × Number)) :
    (productsFrom first ((op, right) :: links)).outcome =
      (productsFrom right links).outcome >>= fun rest => .ok ⟨first, (op, rest.first) :: rest.links⟩ := by
  rw [productsFrom, if_neg (Bool.eq_false_iff.1 h), Journaled.outcome_bind]
  rfl

theorem arithmetic_productsFrom (first : Number) (links : List (Operator × Number)) :
    Arithmetic (productsFrom first links).outcome := by
  induction links generalizing first with
  | nil => exact arithmetic_ok _
  | cons link links ih =>
    obtain ⟨op, right⟩ := link
    cases hop : op.isMultiplicative with
    | true =>
      rw [outcome_productsFrom_multiplicative hop]
      exact (op.arithmetic_apply first right).bind ih
    | false =>
      rw [outcome_productsFrom_additive hop]
      exact (ih right).bind fun rest => arithmetic_ok _

theorem outcome_total_nil (first : Number) : (total ⟨first, []⟩).outcome = .ok first := rfl

theorem outcome_total_cons (first : Number) (link : Operator × Number)
    (links : List (Operator × Number)) :
    (total ⟨first, link :: links⟩).outcome =
      link.1.apply first link.2 >>= fun value => (total ⟨value, links⟩).outcome := by
  unfold total
  rw [List.foldlM_cons, Journaled.outcome_bind, Operator.outcome_perform]

theorem arithmetic_total (chain : Chain) : Arithmetic chain.total.outcome := by
  obtain ⟨first, links⟩ := chain
  induction links generalizing first with
  | nil => exact arithmetic_ok _
  | cons link links ih =>
    rw [outcome_total_cons]
    exact (link.1.arithmetic_apply first link.2).bind ih

theorem outcome_value (chain : Chain) : chain.value.outcome =
    (productsFrom chain.first chain.links).outcome >>= fun products => products.total.outcome := by
  rw [value, products_eq, Journaled.outcome_bind]

theorem arithmetic_value (chain : Chain) : Arithmetic chain.value.outcome := by
  rw [outcome_value]
  exact (arithmetic_productsFrom chain.first chain.links).bind arithmetic_total

end Chain

/-! ## Tokens without groups -/

theorem outcome_valueOf (tokens : List Token) :
    (valueOf tokens).outcome =
      (collapseGroups tokens).outcome >>= fun flat => (valueOfFlat flat).outcome :=
  Journaled.outcome_bind ..

theorem outcome_valueOfFlat (tokens : List Token) :
    (valueOfFlat tokens).outcome = Chain.ofTokens tokens >>= fun chain => chain.value.outcome :=
  Journaled.outcome_bind ..

theorem outcome_valueOfFlat_toTokens (chain : Chain) :
    (valueOfFlat chain.toTokens).outcome = chain.value.outcome := by
  rw [outcome_valueOfFlat, chain.ofTokens_toTokens]
  rfl

theorem outcome_valueOfFlat_number (value : Number) :
    (valueOfFlat [.number value]).outcome = .ok value := rfl

theorem ofTokens_eq_ok_iff {tokens : List Token} {chain : Chain} :
    Chain.ofTokens tokens = .ok chain ↔ tokens = chain.toTokens := by
  rw [← Chain.ofTokens?_eq_some_iff, Chain.ofTokens_eq]
  cases Chain.ofTokens? tokens <;> simp

theorem malformed_of_ofTokens {tokens : List Token} {error : Error}
    (h : Chain.ofTokens tokens = .error error) : error = .malformed := by
  rw [Chain.ofTokens_eq] at h
  cases hchain : Chain.ofTokens? tokens <;> rw [hchain] at h <;> cases h
  rfl

theorem exists_chain_of_valueOfFlat {tokens : List Token} {value : Number}
    (h : (valueOfFlat tokens).outcome = .ok value) :
    ∃ chain : Chain, tokens = chain.toTokens ∧ chain.value.outcome = .ok value := by
  rw [outcome_valueOfFlat] at h
  obtain ⟨chain, hchain, hvalue⟩ := bind_eq_ok.1 h
  exact ⟨chain, ofTokens_eq_ok_iff.1 hchain, hvalue⟩

/-- Tokens with a value collapse to those of a chain. -/
theorem exists_collapsed_of_valueOf {tokens : List Token} {value : Number}
    (h : (valueOf tokens).outcome = .ok value) :
    ∃ chain : Chain, (collapseGroups tokens).outcome = .ok chain.toTokens ∧
      chain.value.outcome = .ok value := by
  rw [outcome_valueOf] at h
  obtain ⟨flat, hflat, hvalue⟩ := bind_eq_ok.1 h
  obtain ⟨chain, rfl, hchain⟩ := exists_chain_of_valueOfFlat hvalue
  exact ⟨chain, hflat, hchain⟩

theorem outcome_valueOfFlat_of_none {tokens : List Token} (h : Chain.ofTokens? tokens = none) :
    (valueOfFlat tokens).outcome = .error .malformed := by
  rw [outcome_valueOfFlat, Chain.ofTokens_of_none h]
  rfl

theorem error_of_valueOfFlat {tokens : List Token} {error : Error}
    (h : (valueOfFlat tokens).outcome = .error error) :
    error = .malformed ∨ error = .divisionByZero := by
  rw [outcome_valueOfFlat] at h
  rcases bind_eq_error.1 h with hchain | ⟨chain, -, hvalue⟩
  · exact Or.inl (malformed_of_ofTokens hchain)
  · exact Or.inr (chain.arithmetic_value error hvalue)

/-! ## Texts -/

theorem outcome_evaluate (text : String) :
    (evaluate text).outcome =
      (tokenize text).mapError .lexical >>= fun tokens => (valueOf tokens).outcome := by
  have hread : (readTokens text).outcome = (tokenize text).mapError .lexical := rfl
  unfold evaluate
  simp only [Journaled.outcome_bind, hread]
  congr 1
  funext tokens
  exact bind_ok_right _

theorem outcome_evaluate_of_tokenize {text : String} {tokens : List Token}
    (h : tokenize text = .ok tokens) : (evaluate text).outcome = (valueOf tokens).outcome := by
  rw [outcome_evaluate, h]
  rfl

end Calculator
