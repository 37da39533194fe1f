import Calculator.Proofs.SumOfTerms

/-!
# Barriers between products

No product reaches across a `+` or a `-`. `products_barrier`: with one of these between two chains,
the products of both together are those of each, with the operator in between. What is left of a chain
is a sum with all its additive operators. It has no products any more, and it has a total.
-/

namespace Calculator

namespace Chain

/-! ## The operators that are left -/

theorem operators_of_products {chain products : Chain} (h : chain.products.outcome = .ok products) :
    products.operators = chain.operators.filter fun op => op = .add ∨ op = .sub := by
  obtain ⟨first, links⟩ := chain
  simp only [products_eq] at h
  unfold operators
  induction links generalizing first products with
  | nil =>
    cases h
    rfl
  | cons link links ih =>
    obtain ⟨op, right⟩ := link
    by_cases hop : op = .add ∨ op = .sub
    · rw [outcome_productsFrom_additive (Operator.isMultiplicative_eq_false_iff.2 hop)] at h
      obtain ⟨rest, hrest, hproducts⟩ := bind_eq_ok.1 h
      cases hproducts
      simp [hop, ih right hrest]
    · have hproduct : op.isMultiplicative = true := by
        simpa [← Operator.isMultiplicative_eq_false_iff] using hop
      rw [outcome_productsFrom_multiplicative hproduct] at h
      obtain ⟨value, -, hvalue⟩ := bind_eq_ok.1 h
      simp [hop, ih value hvalue]

theorem isSum_of_products {chain products : Chain} (h : chain.products.outcome = .ok products) :
    products.IsSum := by
  intro op hop
  rw [operators_of_products h] at hop
  simpa using (List.mem_filter.1 hop).2

/-! ## Sums have no products -/

theorem IsSum.products_eq_pure {chain : Chain} (h : chain.IsSum) : chain.products = pure chain := by
  obtain ⟨first, links⟩ := chain
  induction links generalizing first with
  | nil => rfl
  | cons link links ih =>
    obtain ⟨op, right⟩ := link
    obtain ⟨hop, hlinks⟩ := isSum_cons.1 h
    rw [products_additive (Operator.isMultiplicative_eq_false_iff.2 hop), ih right hlinks]
    rfl

theorem products_eq_pure_iff {chain : Chain} : chain.products = pure chain ↔ chain.IsSum := by
  constructor
  · intro h
    exact isSum_of_products (congrArg Journaled.outcome h)
  · exact IsSum.products_eq_pure

/-! ## Both sides of a barrier -/

theorem outcome_products_append {op : Operator} (hop : op = .add ∨ op = .sub) (chain other : Chain) :
    (chain.append op other).products.outcome = chain.products.outcome >>= fun left =>
      other.products.outcome >>= fun right => .ok (left.append op right) := by
  rw [products_append (Operator.isMultiplicative_eq_false_iff.2 hop)]
  simp only [Journaled.outcome_bind, Journaled.outcome_pure]

/-- **Barriers.** With `+` or `-` between two chains, their products can be worked out if and only if
those of each can, and then they are those of each with the operator in between. What is left of a chain
is a sum with its additive operators in order: to work out the products once more does nothing, and it
has a total. Only sums stay as they are. -/
theorem products_barrier {barrier : Operator} (hbarrier : barrier = .add ∨ barrier = .sub)
    (chain other : Chain) :
    (∀ products, (chain.append barrier other).products.outcome = .ok products ↔
      ∃ left right, chain.products.outcome = .ok left ∧ other.products.outcome = .ok right ∧
        products = left.append barrier right) ∧
    (∀ products, chain.products.outcome = .ok products →
      products.IsSum ∧
      products.operators = (chain.operators.filter fun op => op = .add ∨ op = .sub) ∧
      products.products = pure products ∧
      ∃ value, products.total.outcome = .ok value) ∧
    (chain.products = pure chain ↔ chain.IsSum) := by
  refine ⟨?append, ?sum, products_eq_pure_iff⟩
  case append =>
    intro products
    rw [outcome_products_append hbarrier]
    constructor
    · intro h
      obtain ⟨left, hleft, hboth⟩ := bind_eq_ok.1 h
      obtain ⟨right, hright, hproducts⟩ := bind_eq_ok.1 hboth
      exact ⟨left, right, hleft, hright, (Except.ok.inj hproducts).symm⟩
    · rintro ⟨left, right, hleft, hright, rfl⟩
      rw [hleft, hright, ok_bind, ok_bind]
  case sum =>
    intro products h
    have hsum := isSum_of_products h
    exact ⟨hsum, operators_of_products h, products_eq_pure_iff.2 hsum, _, hsum.outcome_total⟩

/-- The product behind the barrier in `8/2+0*-4-3*5` has its left number there. -/
theorem products_barrier_product_on_each_side :
    (products ⟨8, [(.div, 2), (.add, 0), (.mul, -4)]⟩).outcome = .ok ⟨4, [(.add, -0.0)]⟩ ∧
      (products ⟨3, [(.mul, 5)]⟩).outcome = .ok ⟨15, []⟩ ∧
      (products ⟨8, [(.div, 2), (.add, 0), (.mul, -4), (.sub, 3), (.mul, 5)]⟩).outcome =
        .ok ⟨4, [(.add, -0.0), (.sub, 15)]⟩ ∧
      products ⟨4, [(.add, -0.0)]⟩ = pure ⟨4, [(.add, -0.0)]⟩ ∧
      ∃ value, (total ⟨4, [(.add, -0.0)]⟩).outcome = .ok value := by
  have hleft : (products ⟨8, [(.div, 2), (.add, 0), (.mul, -4)]⟩).outcome =
      .ok ⟨4, [(.add, -0.0)]⟩ := by decide +kernel
  have hright : (products ⟨3, [(.mul, 5)]⟩).outcome = .ok ⟨15, []⟩ := by decide +kernel
  have hbarrier : Operator.sub = .add ∨ Operator.sub = .sub := Or.inr rfl
  obtain ⟨happend, hsum, -⟩ := products_barrier hbarrier ⟨8, [(.div, 2), (.add, 0), (.mul, -4)]⟩
    ⟨3, [(.mul, 5)]⟩
  obtain ⟨-, -, hagain, htotal⟩ := hsum _ hleft
  exact ⟨hleft, hright, (happend _).2 ⟨_, _, hleft, hright, rfl⟩, hagain, htotal⟩

end Chain

end Calculator
