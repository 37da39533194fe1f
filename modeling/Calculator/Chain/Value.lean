import Calculator.Chain
import Calculator.Journal

/-!
# The value of a chain

First the products and quotients are worked out, then the sums and differences, each from left to
right. `products_append`: an additive operator keeps the products in front of it from those behind it,
so the loop over the links comes to the recursion `productsFrom`.
-/

namespace Calculator

/-- Applies an operator and keeps the operation in the journal, unless it is refused. -/
def Operator.perform (op : Operator) (left right : Number) : Journaled Number :=
  match op.apply left right with
  | .ok value => ⟨[.operation op left right value], .ok value⟩
  | .error error => Journaled.fail error

theorem Operator.outcome_perform (op : Operator) (left right : Number) :
    (op.perform left right).outcome = op.apply left right := by
  unfold perform
  cases op.apply left right <;> rfl

namespace Chain

/-- Takes in one more link of a chain, what has been collected of it so far being written with the last
link in front. A product takes the place of its left number, which is the last one collected. -/
def collect (collected : Chain) (link : Operator × Number) : Journaled Chain :=
  if link.1.isMultiplicative then
    match collected.links with
    | [] => do
      let value ← link.1.perform collected.first link.2
      pure ⟨value, []⟩
    | (op, left) :: links => do
      let value ← link.1.perform left link.2
      pure ⟨collected.first, (op, value) :: links⟩
  else pure ⟨collected.first, link :: collected.links⟩

/-- The chain that has been collected, with its links in order. -/
def inOrder (collected : Chain) : Chain := ⟨collected.first, collected.links.reverse⟩

/-- Works out the products and quotients of a chain from left to right. -/
def products (chain : Chain) : Journaled Chain := do
  let collected ← chain.links.foldlM collect ⟨chain.first, []⟩
  pure collected.inOrder

/-- Applies all operators from left to right, without regard to precedence. -/
def total (chain : Chain) : Journaled Number :=
  chain.links.foldlM (fun left link => link.1.perform left link.2) chain.first

def value (chain : Chain) : Journaled Number := do
  let products ← chain.products
  products.total

/-! ## Barriers -/

/-- What has been collected behind an operator, on top of what was collected before it. -/
def behind (collected : Chain) (op : Operator) (before : Chain) : Chain :=
  ⟨before.first, collected.links ++ (op, collected.first) :: before.links⟩

theorem inOrder_behind (collected : Chain) (op : Operator) (before : Chain) :
    (collected.behind op before).inOrder = before.inOrder.append op collected.inOrder := by
  simp [behind, inOrder, append]

theorem collect_additive {op : Operator} (h : op.isMultiplicative = false) (collected : Chain)
    (right : Number) : collect collected (op, right) = pure (behind ⟨right, []⟩ op collected) := by
  simp [collect, h, behind]

/-- What was collected before the operator is not touched any more: the left number of a product is
the last one collected, which stands behind the operator. -/
theorem collect_behind (collected : Chain) (op : Operator) (before : Chain)
    (link : Operator × Number) :
    collect (collected.behind op before) link =
      collect collected link >>= fun next => pure (next.behind op before) := by
  obtain ⟨first, links⟩ := collected
  by_cases h : link.1.isMultiplicative = true
  · -- without links behind the operator, the operator's own link holds the number that is replaced
    cases links with
    | nil => simp [collect, h, behind]
    | cons last links => simp [collect, h, behind]
  · simp [collect, h, behind]

theorem foldlM_collect_behind (collected : Chain) (op : Operator) (before : Chain)
    (links : List (Operator × Number)) :
    links.foldlM collect (collected.behind op before) =
      links.foldlM collect collected >>= fun last => pure (last.behind op before) := by
  induction links generalizing collected with
  | nil => simp
  | cons link links ih => simp only [List.foldlM_cons, collect_behind, bind_assoc, pure_bind, ih]

/-- On either side of an additive operator the products are worked out as if the other side were not
there, first those in front of it. -/
theorem products_append {op : Operator} (h : op.isMultiplicative = false) (chain other : Chain) :
    (chain.append op other).products = chain.products >>= fun left =>
      other.products >>= fun right => pure (left.append op right) := by
  unfold products
  simp only [append, List.foldlM_append, List.foldlM_cons, bind_assoc, pure_bind, collect_additive h,
    foldlM_collect_behind, inOrder_behind]

theorem products_multiplicative {op : Operator} (h : op.isMultiplicative = true)
    (first right : Number) (links : List (Operator × Number)) :
    products ⟨first, (op, right) :: links⟩ =
      op.perform first right >>= fun value => products ⟨value, links⟩ := by
  simp [products, collect, h]

theorem products_additive {op : Operator} (h : op.isMultiplicative = false) (first right : Number)
    (links : List (Operator × Number)) :
    products ⟨first, (op, right) :: links⟩ =
      products ⟨right, links⟩ >>= fun rest => pure (append ⟨first, []⟩ op rest) :=
  products_append h ⟨first, []⟩ ⟨right, links⟩

/-! ## Product by product -/

/-- The products of the chain `first`, `links`, worked out one after the other. An additive operator
ends one product and begins the next. -/
def productsFrom (first : Number) : List (Operator × Number) → Journaled Chain
  | [] => pure ⟨first, []⟩
  | (op, right) :: links =>
    if op.isMultiplicative then do
      let value ← op.perform first right
      productsFrom value links
    else do
      let rest ← productsFrom right links
      pure ⟨first, (op, rest.first) :: rest.links⟩

theorem products_eq (chain : Chain) : chain.products = productsFrom chain.first chain.links := by
  obtain ⟨first, links⟩ := chain
  induction links generalizing first with
  | nil => rfl
  | cons link links ih =>
    obtain ⟨op, right⟩ := link
    by_cases h : op.isMultiplicative = true
    · rw [products_multiplicative h, productsFrom, if_pos h]
      exact bind_congr ih
    · rw [products_additive (Bool.eq_false_iff.2 h), ih, productsFrom, if_neg h]
      rfl

end Chain

end Calculator
