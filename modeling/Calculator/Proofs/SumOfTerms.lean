import Mathlib.Data.List.Basic
import Calculator.Number.Bits
import Calculator.Proofs.Outcome

/-!
# Sums of terms

A chain is a sum of terms, and a term a product of numbers: `number ((* | /) number)*` with `+` or `-`
in between. `outcome_value_sumOfTerms`: a chain has the value of that sum, each level worked out from
left to right, unless it divides by a number that is zero. One pass over the links that keeps a running
sum and the term behind it comes to the same.
-/

namespace Calculator

namespace Operator

abbrev Multiplicative := { op : Operator // op = mul ∨ op = div }

abbrev Additive := { op : Operator // op = add ∨ op = sub }

/-- The result of an operation of which nothing is refused. -/
def compute : Operator → Number → Number → Number
  | add, left, right => left + right
  | sub, left, right => left - right
  | mul, left, right => left * right
  | div, left, right => left / right

theorem not_multiplicative_iff {op : Operator} : ¬ (op = mul ∨ op = div) ↔ op = add ∨ op = sub := by
  cases op <;> decide

end Operator

/-- A number that is multiplied by others and divided by others. -/
structure Term where
  first : Number
  factors : List (Operator.Multiplicative × Number)

def Term.value (term : Term) : Number :=
  term.factors.foldl (fun value factor => factor.1.val.compute value factor.2) term.first

/-- A term to which others are added and from which others are taken. -/
structure TermSum where
  first : Term
  terms : List (Operator.Additive × Term)

namespace TermSum

def value (sum : TermSum) : Number :=
  sum.terms.foldl (fun value term => term.1.val.compute value term.2.value) sum.first.value

/-! ## The chain of a sum -/

def factorLinks (factors : List (Operator.Multiplicative × Number)) : List (Operator × Number) :=
  factors.map fun factor => (factor.1.val, factor.2)

def termLinks (terms : List (Operator.Additive × Term)) : List (Operator × Number) :=
  terms.flatMap fun term => (term.1.val, term.2.first) :: factorLinks term.2.factors

theorem factorLinks_cons (factor : Operator.Multiplicative × Number)
    (factors : List (Operator.Multiplicative × Number)) :
    factorLinks (factor :: factors) = (factor.1.val, factor.2) :: factorLinks factors :=
  rfl

theorem termLinks_cons (term : Operator.Additive × Term) (terms : List (Operator.Additive × Term)) :
    termLinks (term :: terms) =
      (term.1.val, term.2.first) :: (factorLinks term.2.factors ++ termLinks terms) :=
  rfl

def toChain (sum : TermSum) : Chain :=
  ⟨sum.first.first, factorLinks sum.first.factors ++ termLinks sum.terms⟩

/-- The factors up to the first additive operator, and the terms from there on. -/
def ofLinks : List (Operator × Number) →
    List (Operator.Multiplicative × Number) × List (Operator.Additive × Term)
  | [] => ([], [])
  | (op, right) :: links =>
    if h : op = .mul ∨ op = .div then
      ((⟨op, h⟩, right) :: (ofLinks links).1, (ofLinks links).2)
    else
      ([], (⟨op, Operator.not_multiplicative_iff.1 h⟩, ⟨right, (ofLinks links).1⟩) ::
        (ofLinks links).2)

def ofChain (chain : Chain) : TermSum :=
  ⟨⟨chain.first, (ofLinks chain.links).1⟩, (ofLinks chain.links).2⟩

theorem ofLinks_multiplicative (op : Operator.Multiplicative) (right : Number)
    (links : List (Operator × Number)) :
    ofLinks ((op.val, right) :: links) = ((op, right) :: (ofLinks links).1, (ofLinks links).2) := by
  rw [ofLinks, dif_pos op.property]

theorem ofLinks_additive (op : Operator.Additive) (right : Number)
    (links : List (Operator × Number)) :
    ofLinks ((op.val, right) :: links) =
      ([], (op, ⟨right, (ofLinks links).1⟩) :: (ofLinks links).2) := by
  rw [ofLinks, dif_neg (Operator.not_multiplicative_iff.2 op.property)]

@[elab_as_elim]
theorem links_induction {motive : List (Operator × Number) → Prop} (nil : motive [])
    (multiplicative : ∀ (op : Operator.Multiplicative) right links, motive links →
      motive ((op.val, right) :: links))
    (additive : ∀ (op : Operator.Additive) right links, motive links →
      motive ((op.val, right) :: links))
    (links : List (Operator × Number)) : motive links := by
  induction links with
  | nil => exact nil
  | cons link links ih =>
    obtain ⟨op, right⟩ := link
    by_cases hop : op = .mul ∨ op = .div
    · exact multiplicative ⟨op, hop⟩ right links ih
    · exact additive ⟨op, Operator.not_multiplicative_iff.1 hop⟩ right links ih

theorem ofLinks_append (factors : List (Operator.Multiplicative × Number))
    (terms : List (Operator.Additive × Term)) :
    ofLinks (factorLinks factors ++ termLinks terms) = (factors, terms) := by
  induction terms generalizing factors with
  | nil =>
    induction factors with
    | nil => rfl
    | cons factor factors ih => rw [factorLinks_cons, List.cons_append, ofLinks_multiplicative, ih]
  | cons term terms ihterms =>
    induction factors with
    | nil =>
      rw [termLinks_cons]
      exact (ofLinks_additive ..).trans (by rw [ihterms])
    | cons factor factors ih => rw [factorLinks_cons, List.cons_append, ofLinks_multiplicative, ih]

theorem links_ofLinks (links : List (Operator × Number)) :
    factorLinks (ofLinks links).1 ++ termLinks (ofLinks links).2 = links := by
  induction links using links_induction with
  | nil => rfl
  | multiplicative op right links ih =>
    rw [ofLinks_multiplicative, factorLinks_cons, List.cons_append, ih]
  | additive op right links ih =>
    rw [ofLinks_additive, termLinks_cons]
    exact congrArg ((op.val, right) :: ·) ih

theorem toChain_eq_iff {sum : TermSum} {chain : Chain} :
    sum.toChain = chain ↔ sum = ofChain chain := by
  constructor
  · rintro rfl
    obtain ⟨⟨first, factors⟩, terms⟩ := sum
    simp only [ofChain, toChain, ofLinks_append]
  · rintro rfl
    simp only [toChain, ofChain, links_ofLinks]

end TermSum

/-! ## Divisions by zero -/

/-- Some link divides by a number that is zero as it stands. -/
def DividesByZero (links : List (Operator × Number)) : Prop :=
  ∃ link ∈ links, link.1 = .div ∧ (link.2 = 0 ∨ link.2 = -0.0)

instance (links : List (Operator × Number)) : Decidable (DividesByZero links) :=
  inferInstanceAs (Decidable (∃ link ∈ links, link.1 = .div ∧ (link.2 = 0 ∨ link.2 = -0.0)))

theorem not_dividesByZero_nil : ¬ DividesByZero [] := by
  rintro ⟨link, hlink, -⟩
  cases hlink

theorem dividesByZero_cons {op : Operator} {right : Number} {links : List (Operator × Number)} :
    DividesByZero ((op, right) :: links) ↔
      (op = .div ∧ (right = 0 ∨ right = -0.0)) ∨ DividesByZero links :=
  List.exists_mem_cons_iff ..

theorem dividesByZero_additive (op : Operator.Additive) {right : Number}
    {links : List (Operator × Number)} :
    DividesByZero ((op.val, right) :: links) ↔ DividesByZero links := by
  have hop : op.val ≠ .div := fun h => Operator.not_multiplicative_iff.2 op.property (Or.inr h)
  simp [dividesByZero_cons, hop]

theorem Operator.apply_eq (op : Operator) (left right : Number) :
    op.apply left right =
      if op = .div ∧ (right = 0 ∨ right = -0.0) then .error .divisionByZero
      else .ok (op.compute left right) := by
  cases op with
  | add => rfl
  | sub => rfl
  | mul => rfl
  | div =>
    simp only [apply, compute, true_and, ← Number.isZero_iff]

theorem Operator.Additive.apply_eq (op : Operator.Additive) (left right : Number) :
    op.val.apply left right = .ok (op.val.compute left right) := by
  obtain ⟨op, rfl | rfl⟩ := op
  · rfl
  · rfl

/-! ## Sums of numbers -/

namespace Chain

def operators (chain : Chain) : List Operator := chain.links.map Prod.fst

/-- Numbers are only added and taken away. -/
def IsSum (chain : Chain) : Prop := ∀ op ∈ chain.operators, op = .add ∨ op = .sub

theorem isSum_cons {first right : Number} {op : Operator} {links : List (Operator × Number)} :
    IsSum ⟨first, (op, right) :: links⟩ ↔ (op = .add ∨ op = .sub) ∧ IsSum ⟨right, links⟩ :=
  List.forall_mem_cons

theorem IsSum.outcome_total {chain : Chain} (h : chain.IsSum) :
    chain.total.outcome =
      .ok (chain.links.foldl (fun value link => link.1.compute value link.2) chain.first) := by
  obtain ⟨first, links⟩ := chain
  induction links generalizing first with
  | nil => rfl
  | cons link links ih =>
    obtain ⟨op, right⟩ := link
    obtain ⟨hop, hlinks⟩ := isSum_cons.1 h
    have happly : op.apply first right = .ok (op.compute first right) :=
      Operator.Additive.apply_eq ⟨op, hop⟩ first right
    rw [outcome_total_cons, happly, ok_bind]
    exact ih (op.compute first right) hlinks

/-! ## Two passes -/

theorem outcome_productsFrom_ofLinks (first : Number) (links : List (Operator × Number)) :
    (productsFrom first links).outcome =
      if DividesByZero links then .error .divisionByZero
      else .ok ⟨Term.value ⟨first, (TermSum.ofLinks links).1⟩,
        (TermSum.ofLinks links).2.map fun term => (term.1.val, term.2.value)⟩ := by
  induction links using TermSum.links_induction generalizing first with
  | nil => rw [if_neg not_dividesByZero_nil]; rfl
  | multiplicative op right links ih =>
    -- only the link's own number decides whether the product is refused
    rw [outcome_productsFrom_multiplicative (Operator.isMultiplicative_iff.2 op.property),
      Operator.apply_eq, TermSum.ofLinks_multiplicative]
    simp only [dividesByZero_cons]
    split
    · rename_i hzero
      rw [if_pos (Or.inl hzero)]
      rfl
    · rename_i hzero
      rw [ok_bind, ih]
      simp only [hzero, false_or]
      rfl
  | additive op right links ih =>
    rw [outcome_productsFrom_additive (Operator.isMultiplicative_eq_false_iff.2 op.property), ih,
      TermSum.ofLinks_additive]
    simp only [dividesByZero_additive]
    split <;> rfl

theorem outcome_total_terms (first : Number) (terms : List (Operator.Additive × Term)) :
    (total ⟨first, terms.map fun term => (term.1.val, term.2.value)⟩).outcome =
      .ok (terms.foldl (fun value term => term.1.val.compute value term.2.value) first) := by
  have hsum : IsSum ⟨first, terms.map fun term => (term.1.val, term.2.value)⟩ := by
    intro op hop
    simp only [operators, List.map_map, List.mem_map] at hop
    obtain ⟨term, -, rfl⟩ := hop
    exact term.1.property
  rw [hsum.outcome_total, List.foldl_map]

theorem outcome_value_ofChain (chain : Chain) :
    chain.value.outcome =
      if DividesByZero chain.links then .error .divisionByZero
      else .ok (TermSum.ofChain chain).value := by
  rw [outcome_value, outcome_productsFrom_ofLinks]
  split
  · rfl
  · rw [ok_bind, outcome_total_terms]
    rfl

end Chain

/-! ## One pass -/

/-- What one pass keeps: the term that is being worked out, and what it is to be added to or taken
from, if it is not the first one. -/
structure Running where
  pending? : Option (Number × Operator.Additive)
  term : Number

namespace Running

/-- The sum, if the term ends here. -/
def sum (running : Running) : Number :=
  match running.pending? with
  | none => running.term
  | some (sum, op) => op.val.compute sum running.term

def step (running : Running) (link : Operator × Number) : Except Error Running :=
  if h : link.1 = .mul ∨ link.1 = .div then do
    let term ← link.1.apply running.term link.2
    return { running with term }
  else return ⟨some (running.sum, ⟨link.1, Operator.not_multiplicative_iff.1 h⟩), link.2⟩

def value (chain : Chain) : Except Error Number := do
  let last ← chain.links.foldlM step ⟨none, chain.first⟩
  return last.sum

theorem step_multiplicative (op : Operator.Multiplicative) (running : Running) (right : Number) :
    running.step (op.val, right) =
      if op.val = .div ∧ (right = 0 ∨ right = -0.0) then .error .divisionByZero
      else .ok { running with term := op.val.compute running.term right } := by
  rw [step, dif_pos op.property, Operator.apply_eq]
  split <;> rfl

theorem step_additive (op : Operator.Additive) (running : Running) (right : Number) :
    running.step (op.val, right) = .ok ⟨some (running.sum, op), right⟩ := by
  rw [step, dif_neg (Operator.not_multiplicative_iff.2 op.property)]
  rfl

/-- The links that are left are the rest of the term, then the other terms. -/
theorem foldlM_step (running : Running) (links : List (Operator × Number)) :
    (links.foldlM step running >>= fun last => .ok last.sum) =
      if DividesByZero links then .error .divisionByZero
      else .ok ((TermSum.ofLinks links).2.foldl
        (fun value term => term.1.val.compute value term.2.value)
        { running with term := Term.value ⟨running.term, (TermSum.ofLinks links).1⟩ }.sum) := by
  induction links using TermSum.links_induction generalizing running with
  | nil => rw [if_neg not_dividesByZero_nil]; rfl
  | multiplicative op right links ih =>
    rw [List.foldlM_cons, step_multiplicative, TermSum.ofLinks_multiplicative]
    simp only [dividesByZero_cons]
    split
    · rename_i hzero
      rw [if_pos (Or.inl hzero)]
      rfl
    · rename_i hzero
      rw [ok_bind, ih]
      simp only [hzero, false_or]
      rfl
  | additive op right links ih =>
    rw [List.foldlM_cons, step_additive, ok_bind, ih, TermSum.ofLinks_additive]
    simp only [dividesByZero_additive]
    rfl

theorem value_eq (chain : Chain) : value chain = chain.value.outcome := by
  rw [Chain.outcome_value_ofChain]
  exact foldlM_step ⟨none, chain.first⟩ chain.links

end Running

/-- **Sums of terms.** A chain is the text of one sum of terms. It fails only by a division by zero, and
just when one of its own numbers behind a `/` is zero; else it has the value of that sum. One pass that
keeps a running sum comes to the same, value or error. -/
theorem outcome_value_sumOfTerms (chain : Chain) :
    ∃ reading : TermSum,
      (∀ other : TermSum, other.toChain = chain ↔ other = reading) ∧
      (∀ error, chain.value.outcome = .error error ↔
        error = .divisionByZero ∧ DividesByZero chain.links) ∧
      (∀ value, chain.value.outcome = .ok value ↔
        value = reading.value ∧ ¬ DividesByZero chain.links) ∧
      Running.value chain = chain.value.outcome := by
  have houtcome := chain.outcome_value_ofChain
  refine ⟨.ofChain chain, fun other => TermSum.toChain_eq_iff, ?error, ?value,
    Running.value_eq chain⟩
  case error =>
    intro error
    by_cases h : DividesByZero chain.links
    · rw [houtcome, if_pos h]
      simp [h, eq_comm]
    · rw [houtcome, if_neg h]
      simp [h]
  case value =>
    intro value
    by_cases h : DividesByZero chain.links
    · rw [houtcome, if_pos h]
      simp [h]
    · rw [houtcome, if_neg h]
      simp [h, eq_comm]

/-- Neither a zero nor an infinity that comes up on the way matters, nor does it hide a division by
zero. -/
example :
    (Chain.value ⟨0, [(.mul, 1), (.div, 4), (.sub, 1)]⟩).outcome = .ok (-1) ∧
      (Chain.value ⟨1e308, [(.mul, 10), (.sub, 2), (.div, -0.0)]⟩).outcome =
        .error .divisionByZero := by
  decide +kernel

end Calculator
