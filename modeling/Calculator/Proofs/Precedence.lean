import Calculator.Proofs.SignedChain

/-!
# Precedence

A chain is read as one tree of operations: multiplication and division bind tighter than addition and
subtraction, and operators that bind alike group to the left. `outcome_valueOf_parenthesized`: with
parentheses around each operation of that tree, the tokens have the same value or error.
-/

namespace Calculator

def Operator.precedence : Operator → Nat
  | mul | div => 1
  | add | sub => 0

theorem Operator.precedence_of_multiplicative {op : Operator} (h : op.isMultiplicative = true) :
    op.precedence = 1 := by
  rcases isMultiplicative_iff.1 h with rfl | rfl <;> rfl

theorem Operator.precedence_of_additive {op : Operator} (h : op.isMultiplicative = false) :
    op.precedence = 0 := by
  rcases isMultiplicative_eq_false_iff.1 h with rfl | rfl <;> rfl

/-- A tree of operations. -/
inductive Expression where
  | number (value : Number)
  | operation (op : Operator) (left right : Expression)

namespace Expression

/-- Numbers bind tighter than any operator. -/
def precedence : Expression → Nat
  | number _ => 2
  | operation op _ _ => op.precedence

/-- No operand needs parentheses: none on the left binds looser than its operator, and all on the
right bind tighter. -/
def Plain : Expression → Prop
  | number _ => True
  | operation op left right =>
    left.Plain ∧ right.Plain ∧ op.precedence ≤ left.precedence ∧ op.precedence < right.precedence

/-- The tokens of the tree without parentheses. -/
def toTokens : Expression → List Token
  | number value => [.number value]
  | operation op left right => left.toTokens ++ .operator op :: right.toTokens

/-- The tokens of the tree with parentheses around each operation. -/
def parenthesized : Expression → List Token
  | number value => [.number value]
  | operation op left right =>
    .opening :: (left.parenthesized ++ .operator op :: (right.parenthesized ++ [.closing]))

/-- Operands are worked out from right to left, as groups are. -/
def value : Expression → Except Error Number
  | number value => .ok value
  | operation op left right => do
    let rightValue ← right.value
    let leftValue ← left.value
    op.apply leftValue rightValue

/-! ## The tree of a chain -/

/-- The tree with one more link, which goes to the last operand if it binds tighter than the operator
before that. -/
def extend : Expression → Operator × Number → Expression
  | number value, link => operation link.1 (number value) (number link.2)
  | operation op left right, link =>
    if op.precedence < link.1.precedence then
      operation op left (operation link.1 right (number link.2))
    else operation link.1 (operation op left right) (number link.2)

def ofChain (chain : Chain) : Expression := chain.links.foldl extend (number chain.first)

theorem toTokens_extend (e : Expression) (link : Operator × Number) :
    (e.extend link).toTokens = e.toTokens ++ Chain.linkTokens link := by
  cases e with
  | number value => rfl
  | operation op left right =>
    rw [extend]
    split <;> simp [toTokens, Chain.linkTokens]

theorem toTokens_foldl_extend (e : Expression) (links : List (Operator × Number)) :
    (links.foldl extend e).toTokens = e.toTokens ++ links.flatMap Chain.linkTokens := by
  induction links generalizing e with
  | nil => simp
  | cons link links ih => rw [List.foldl_cons, ih, toTokens_extend, List.flatMap_cons, List.append_assoc]

theorem toTokens_ofChain (chain : Chain) : (ofChain chain).toTokens = chain.toTokens := by
  rw [ofChain, toTokens_foldl_extend]
  rfl

theorem precedence_le_one (op : Operator) : op.precedence ≤ 1 := by
  cases op <;> decide

theorem plain_extend {e : Expression} (h : e.Plain) (link : Operator × Number) :
    (e.extend link).Plain := by
  have hlink := precedence_le_one link.1
  cases e with
  | number value =>
    refine ⟨trivial, trivial, ?_, ?_⟩
    · simp only [precedence]; omega
    · simp only [precedence]; omega
  | operation op left right =>
    obtain ⟨hleft, hright, hl, hr⟩ := h
    rw [extend]
    split
    · rename_i hlt
      refine ⟨hleft, ⟨hright, trivial, ?_, ?_⟩, hl, ?_⟩
      · omega
      · simp only [precedence]; omega
      · exact hlt
    · rename_i hle
      refine ⟨⟨hleft, hright, hl, hr⟩, trivial, ?_, ?_⟩
      · simp only [precedence]; omega
      · simp only [precedence]; omega

theorem plain_foldl_extend {e : Expression} (h : e.Plain) (links : List (Operator × Number)) :
    (links.foldl extend e).Plain := by
  induction links generalizing e with
  | nil => exact h
  | cons link links ih => exact ih (plain_extend h link)

theorem plain_ofChain (chain : Chain) : (ofChain chain).Plain :=
  @plain_foldl_extend (number chain.first) trivial chain.links

/-! ## There is no other tree -/

def first : Expression → Number
  | number value => value
  | operation _ left _ => left.first

def links : Expression → List (Operator × Number)
  | number _ => []
  | operation op left right => left.links ++ (op, right.first) :: right.links

theorem toTokens_eq (e : Expression) : e.toTokens = (⟨e.first, e.links⟩ : Chain).toTokens := by
  induction e with
  | number value => rfl
  | operation op left right ihl ihr =>
    rw [toTokens, ihl, ihr]
    simp [Chain.toTokens, Chain.linkTokens, first, links]

theorem exists_number_of_precedence {e : Expression} (h : 1 < e.precedence) :
    ∃ value, e = number value := by
  cases e with
  | number value => exact ⟨value, rfl⟩
  | operation op left right =>
    have := precedence_le_one op
    simp only [precedence] at h
    omega

/-- Links that bind tighter than `op` all go to its last operand. -/
theorem foldl_extend_operation {op : Operator} {left e : Expression} (h : e.Plain)
    (hop : op.precedence < e.precedence) :
    e.links.foldl extend (operation op left (number e.first)) = operation op left e := by
  induction e with
  | number value => rfl
  | operation op' left' right' ihl ihr =>
    obtain ⟨hleft, hright, hl, hr⟩ := h
    simp only [precedence] at hop
    obtain ⟨value, rfl⟩ := exists_number_of_precedence (show 1 < right'.precedence by omega)
    have hl' := ihl hleft (by omega)
    rw [first, links, List.foldl_append, hl']
    simp [extend, links, first, hop]

theorem foldl_extend_links {e : Expression} (h : e.Plain) :
    e.links.foldl extend (number e.first) = e := by
  induction e with
  | number value => rfl
  | operation op left right ihl ihr =>
    obtain ⟨hleft, hright, hl, hr⟩ := h
    have hextend : left.extend (op, right.first) = operation op left (number right.first) := by
      cases left with
      | number value => rfl
      | operation op' left' right' =>
        simp only [precedence] at hl
        simp [extend, Nat.not_lt.2 hl]
    rw [links, first, List.foldl_append, ihl hleft, List.foldl_cons, hextend,
      foldl_extend_operation hright hr]

theorem plain_iff_eq_ofChain {e : Expression} {chain : Chain} :
    e.Plain ∧ e.toTokens = chain.toTokens ↔ e = ofChain chain := by
  constructor
  · rintro ⟨hplain, htokens⟩
    have hchain : chain = ⟨e.first, e.links⟩ := by
      have h := Chain.ofTokens?_eq_some_iff.2 htokens
      rw [toTokens_eq, Chain.ofTokens?_eq_some_iff.2 rfl] at h
      cases h; rfl
    rw [hchain]
    exact (foldl_extend_links hplain).symm
  · rintro rfl
    exact ⟨plain_ofChain chain, toTokens_ofChain chain⟩

/-! ## The value of the tree -/

theorem arithmetic_value (e : Expression) : Arithmetic e.value := by
  induction e with
  | number value => exact arithmetic_ok value
  | operation op left right ihl ihr =>
    exact ihr.bind fun rightValue => ihl.bind fun leftValue =>
      op.arithmetic_apply leftValue rightValue

theorem extend_of_multiplicative {op op' : Operator} (hop : op.isMultiplicative = false)
    (hop' : op'.isMultiplicative = true) (left right : Expression) (x : Number) :
    (operation op left right).extend (op', x) = operation op left (operation op' right (number x)) := by
  simp [extend, Operator.precedence_of_additive hop, Operator.precedence_of_multiplicative hop']

theorem extend_of_additive {op : Operator} (hop : op.isMultiplicative = false) (e : Expression)
    (x : Number) : e.extend (op, x) = operation op e (number x) := by
  cases e <;> simp [extend, Operator.precedence_of_additive hop]

theorem extend_of_precedence {e : Expression} (h : 1 ≤ e.precedence) (link : Operator × Number) :
    e.extend link = operation link.1 e (number link.2) := by
  have hlink := precedence_le_one link.1
  cases e with
  | number value => rfl
  | operation op left right =>
    simp only [precedence] at h
    simp [extend, show ¬ op.precedence < link.1.precedence by omega]

/-- Once a sum has begun, its last operand is worked out with the products, and what stands before it
with the sums. -/
theorem value_foldl_extend_operation {op : Operator} (hop : op.isMultiplicative = false)
    (left right : Expression) (links : List (Operator × Number)) :
    (links.foldl extend (operation op left right)).value =
      right.value >>= fun rightValue =>
        (Chain.productsFrom rightValue links).outcome >>= fun products =>
          left.value >>= fun leftValue =>
            op.apply leftValue products.first >>= fun sum =>
              (Chain.total ⟨sum, products.links⟩).outcome := by
  induction links generalizing op left right with
  | nil =>
    simp only [List.foldl_nil, value, Chain.outcome_productsFrom_nil, ok_bind,
      Chain.outcome_total_nil, bind_ok_right]
  | cons link links ih =>
    obtain ⟨op', x⟩ := link
    cases hop' : op'.isMultiplicative with
    | true =>
      rw [List.foldl_cons, extend_of_multiplicative hop hop', ih hop]
      simp only [Chain.outcome_productsFrom_multiplicative hop', value, bind_assoc, ok_bind]
    | false =>
      rw [List.foldl_cons, extend_of_additive hop', ih hop']
      simp only [Chain.outcome_productsFrom_additive hop', Chain.outcome_total_cons, value, bind_assoc,
        ok_bind]
      exact (Chain.arithmetic_productsFrom x links).bind_comm right.arithmetic_value _

theorem value_foldl_extend {e : Expression} (h : 1 ≤ e.precedence)
    (links : List (Operator × Number)) :
    (links.foldl extend e).value =
      e.value >>= fun first =>
        (Chain.productsFrom first links).outcome >>= fun products => products.total.outcome := by
  induction links generalizing e with
  | nil =>
    simp only [List.foldl_nil, Chain.outcome_productsFrom_nil, ok_bind, Chain.outcome_total_nil,
      bind_ok_right]
  | cons link links ih =>
    obtain ⟨op, x⟩ := link
    rw [List.foldl_cons, extend_of_precedence h]
    cases hop : op.isMultiplicative with
    | true =>
      have hprecedence : 1 ≤ (operation op e (number x)).precedence :=
        (Operator.precedence_of_multiplicative hop).ge
      rw [ih hprecedence]
      simp only [Chain.outcome_productsFrom_multiplicative hop, value, bind_assoc, ok_bind]
    | false =>
      rw [value_foldl_extend_operation hop]
      simp only [Chain.outcome_productsFrom_additive hop, Chain.outcome_total_cons, value, bind_assoc,
        ok_bind]
      exact (Chain.arithmetic_productsFrom x links).bind_comm e.arithmetic_value _

theorem value_ofChain (chain : Chain) : (ofChain chain).value = chain.value.outcome := by
  rw [ofChain, value_foldl_extend (by simp [precedence]), value, ok_bind, Chain.outcome_value]

/-! ## The groups of the tree -/

/-- The tree, each operation a group, before a sequence. -/
def nesting : Expression → Nesting → Nesting
  | number value, rest => .number value rest
  | operation op left right, rest =>
    .group (left.nesting (.operator op (right.nesting .empty))) rest

theorem toTokens_nesting (e : Expression) (rest : Nesting) :
    (e.nesting rest).toTokens = e.parenthesized ++ rest.toTokens := by
  induction e generalizing rest with
  | number value => rfl
  | operation op left right ihl ihr =>
    simp [nesting, parenthesized, Nesting.toTokens, ihl, ihr]

theorem groupValue_operation (op : Operator) (left right : Number) :
    groupValue [.number left, .operator op, .number right] = op.apply left right := by
  have hvalue := groupValue_of_signedChain (signedChain_toTokens ⟨left, [(op, right)]⟩)
  rw [Chain.outcome_value] at hvalue
  cases hop : op.isMultiplicative with
  | true =>
    simp only [Chain.outcome_productsFrom_multiplicative hop, Chain.outcome_productsFrom_nil,
      bind_assoc, ok_bind, Chain.outcome_total_nil, bind_ok_right] at hvalue
    exact hvalue
  | false =>
    simp only [Chain.outcome_productsFrom_additive hop, Chain.outcome_productsFrom_nil, ok_bind,
      Chain.outcome_total_cons, Chain.outcome_total_nil, bind_ok_right] at hvalue
    exact hvalue

theorem collapse_nesting (e : Expression) (rest : Nesting) :
    (e.nesting rest).collapse =
      rest.collapse >>= fun behind => e.value >>= fun value => .ok (.number value :: behind) := by
  induction e generalizing rest with
  | number value => rfl
  | operation op left right ihl ihr =>
    have hinside : (left.nesting (.operator op (right.nesting .empty))).collapse =
        right.value >>= fun rightValue => left.value >>= fun leftValue =>
          .ok [.number leftValue, .operator op, .number rightValue] := by
      simp only [ihl, Nesting.collapse, ihr, bind_assoc]
      rfl
    simp only [nesting, Nesting.collapse, hinside, value, bind_assoc, ok_bind, groupValue_operation]
    rfl

theorem outcome_valueOf (e : Expression) : (valueOf e.parenthesized).outcome = e.value := by
  have htokens : (e.nesting .empty).toTokens = e.parenthesized := by
    rw [toTokens_nesting, Nesting.toTokens, List.append_nil]
  rw [← htokens, outcome_valueOf_toTokens, Nesting.value, collapse_nesting]
  simp only [Nesting.collapse, pure_bind, bind_assoc, ok_bind, outcome_valueOfFlat_number,
    bind_ok_right]

end Expression

/-- **Precedence.** A chain is the text of one tree whose operands need no parentheses, and of no
other. With parentheses around each operation of that tree the tokens come to the same, and the only
error of either is a division by zero. -/
theorem outcome_valueOf_parenthesized (chain : Chain) :
    ∃ e : Expression,
      (∀ other : Expression, other.Plain ∧ other.toTokens = chain.toTokens ↔ other = e) ∧
      (valueOf e.parenthesized).outcome = (valueOf chain.toTokens).outcome ∧
      ∀ error, (valueOf chain.toTokens).outcome = .error error → error = .divisionByZero := by
  refine ⟨.ofChain chain, fun other => Expression.plain_iff_eq_ofChain, ?_, ?_⟩
  · rw [Expression.outcome_valueOf, Expression.value_ofChain, chain.outcome_valueOf]
  · rw [chain.outcome_valueOf]
    exact chain.arithmetic_value

example : Token.text (Expression.ofChain ⟨1, [(.add, 2), (.mul, 3), (.sub, 4)]⟩).parenthesized =
    "((1+(2*3))-4)" := by decide +kernel

end Calculator
