import Mathlib.Algebra.Order.Group.Multiset
import Calculator.Proofs.Outcome

/-!
# Operations

The journal of a chain's value holds its operations and nothing else. `Chain.conserves_value`: what
the operations take are the numbers of the chain and the results of other operations, each once, and
what is left over is the value.
-/

namespace Calculator

namespace Event

def isOperation : Event → Bool
  | operation .. => true
  | _ => false

def isGroup : Event → Bool
  | group .. => true
  | _ => false

/-- An operation with the result that it has. -/
def IsPerformed : Event → Prop
  | operation op left right value => op.apply left right = .ok value
  | _ => False

def operands : Event → List Number
  | operation _ left right _ => [left, right]
  | _ => []

def results : Event → List Number
  | operation _ _ _ value => [value]
  | _ => []

theorem IsPerformed.isGroup {event : Event} (h : event.IsPerformed) : event.isGroup = false := by
  cases event with
  | operation => rfl
  | token | group | result => cases h

end Event

/-! ## Only operations -/

theorem Operator.perform_ok {op : Operator} {left right value : Number}
    (h : op.apply left right = .ok value) :
    op.perform left right = ⟨[.operation op left right value], .ok value⟩ := by
  rw [perform, h]

theorem Operator.isPerformed_perform (op : Operator) (left right : Number) :
    ∀ event ∈ (op.perform left right).events, event.IsPerformed := by
  intro event hevent
  cases h : op.apply left right with
  | error error =>
    rw [perform, h] at hevent
    cases hevent
  | ok value =>
    rw [perform_ok h, List.mem_singleton] at hevent
    rw [hevent]
    exact h

namespace Chain

theorem isPerformed_productsFrom (first : Number) (links : List (Operator × Number)) :
    ∀ event ∈ (productsFrom first links).events, event.IsPerformed := by
  induction links generalizing first with
  | nil =>
    intro event hevent
    cases hevent
  | cons link links ih =>
    rw [productsFrom]
    split
    · exact Journaled.forall_mem_bind (link.1.isPerformed_perform first link.2) ih
    · refine Journaled.forall_mem_bind (ih link.2) fun rest event hevent => ?_
      cases hevent

theorem isPerformed_total (chain : Chain) : ∀ event ∈ chain.total.events, event.IsPerformed := by
  obtain ⟨first, links⟩ := chain
  unfold total
  induction links generalizing first with
  | nil =>
    intro event hevent
    cases hevent
  | cons link links ih =>
    rw [List.foldlM_cons]
    exact Journaled.forall_mem_bind (link.1.isPerformed_perform first link.2) ih

theorem isPerformed_value (chain : Chain) : ∀ event ∈ chain.value.events, event.IsPerformed := by
  rw [value, products_eq]
  exact Journaled.forall_mem_bind (isPerformed_productsFrom _ _) isPerformed_total

end Chain

theorem isPerformed_valueOfFlat (tokens : List Token) :
    ∀ event ∈ (valueOfFlat tokens).events, event.IsPerformed := by
  refine Journaled.forall_mem_bind (fun event hevent => ?_) Chain.isPerformed_value
  cases hevent

/-! ## Conservation -/

/-- The numbers without their signs, in no order. -/
def magnitudes (numbers : List Number) : Multiset Nat := ↑(numbers.map Number.magnitude)

theorem magnitudes_append (numbers others : List Number) :
    magnitudes (numbers ++ others) = magnitudes numbers + magnitudes others := by
  simp only [magnitudes, List.map_append, Multiset.coe_add]

theorem card_magnitudes (numbers : List Number) :
    Multiset.card (magnitudes numbers) = numbers.length := by
  simp only [magnitudes, Multiset.coe_card, List.length_map]

/-- The events lead from the first numbers to the last ones and lose none, signs apart: the first
numbers and the results on the way are what the operations take, and the last numbers. -/
def Conserves (before : List Number) (events : List Event) (after : List Number) : Prop :=
  magnitudes before + magnitudes (events.flatMap Event.results) =
    magnitudes (events.flatMap Event.operands) + magnitudes after

namespace Conserves

variable {before middle after : List Number} {events others : List Event}

theorem of_magnitudes (h : magnitudes before = magnitudes after) : Conserves before [] after := by
  simp only [Conserves, h, List.flatMap_nil]
  exact add_comm _ _

theorem refl (numbers : List Number) : Conserves numbers [] numbers := of_magnitudes rfl

theorem operation (op : Operator) (left right value : Number) :
    Conserves [left, right] [.operation op left right value] [value] := rfl

theorem trans (h : Conserves before events middle) (h' : Conserves middle others after) :
    Conserves before (events ++ others) after := by
  simp only [Conserves, List.flatMap_append, magnitudes_append] at h h' ⊢
  rw [← add_assoc, h, add_assoc, h', add_assoc]

/-- Numbers beside them stay as they are. -/
theorem frame (front behind : List Number) (h : Conserves before events after) :
    Conserves (front ++ (before ++ behind)) events (front ++ (after ++ behind)) := by
  simp only [Conserves, magnitudes_append] at h ⊢
  rw [add_assoc, add_right_comm, h]
  ac_rfl

theorem snoc (h : Conserves before events after) {event : Event}
    (hresults : event.results = []) (hoperands : event.operands = []) :
    Conserves before (events ++ [event]) after := by
  have hnone : Conserves after [event] after := by
    simp only [Conserves, List.flatMap_singleton, hresults, hoperands]
    exact add_comm _ _
  exact h.trans hnone

end Conserves

namespace Event

theorem length_results (events : List Event) :
    (events.flatMap results).length = events.countP isOperation := by
  induction events with
  | nil => rfl
  | cons event events ih =>
    rw [List.flatMap_cons, List.length_append, ih, List.countP_cons]
    cases event <;> simp [results, isOperation, Nat.add_comm]

theorem length_operands (events : List Event) :
    (events.flatMap operands).length = 2 * events.countP isOperation := by
  induction events with
  | nil => rfl
  | cons event events ih =>
    rw [List.flatMap_cons, List.length_append, ih, List.countP_cons]
    cases event with
    | operation =>
      simp [operands, isOperation]
      omega
    | token | group | result => simp [operands, isOperation]

end Event

/-- Each operation makes one number of two. -/
theorem Conserves.length_eq {before after : List Number} {events : List Event}
    (h : Conserves before events after) :
    events.countP Event.isOperation + after.length = before.length := by
  have hcard := congrArg Multiset.card h
  simp only [Multiset.card_add, card_magnitudes, Event.length_results, Event.length_operands] at hcard
  omega

/-! ## The numbers of a chain -/

theorem Operator.conserves_perform {op : Operator} {left right value : Number}
    (h : (op.perform left right).outcome = .ok value) :
    Conserves [left, right] (op.perform left right).events [value] := by
  rw [outcome_perform] at h
  rw [perform_ok h]
  exact .operation op left right value

namespace Chain

def numbers (chain : Chain) : List Number := chain.first :: chain.links.map Prod.snd

theorem conserves_productsFrom {first : Number} {links : List (Operator × Number)} {products : Chain}
    (h : (productsFrom first links).outcome = .ok products) :
    Conserves (first :: links.map Prod.snd) (productsFrom first links).events products.numbers := by
  induction links generalizing first products with
  | nil =>
    cases h
    exact .refl [first]
  | cons link links ih =>
    obtain ⟨op, right⟩ := link
    cases hop : op.isMultiplicative with
    | true =>
      rw [productsFrom, if_pos hop] at h ⊢
      obtain ⟨value, hvalue, hlinks, hevents⟩ := Journaled.exists_of_bind_ok h
      rw [hevents]
      exact ((op.conserves_perform hvalue).frame [] _).trans (ih hlinks)
    | false =>
      rw [productsFrom, if_neg (Bool.eq_false_iff.1 hop)] at h ⊢
      obtain ⟨rest, hrest, hproducts, hevents⟩ := Journaled.exists_of_bind_ok h
      cases hproducts
      rw [hevents, Journaled.events_pure, List.append_nil]
      have hframe := (ih hrest).frame [first] []
      simp only [List.append_nil, List.singleton_append] at hframe
      exact hframe

theorem conserves_total {chain : Chain} {value : Number} (h : chain.total.outcome = .ok value) :
    Conserves chain.numbers chain.total.events [value] := by
  obtain ⟨first, links⟩ := chain
  unfold total at h ⊢
  induction links generalizing first with
  | nil =>
    cases h
    exact .refl [first]
  | cons link links ih =>
    rw [List.foldlM_cons] at h ⊢
    obtain ⟨result, hresult, hlinks, hevents⟩ := Journaled.exists_of_bind_ok h
    rw [hevents]
    exact ((link.1.conserves_perform hresult).frame [] _).trans (ih result hlinks)

theorem conserves_value {chain : Chain} {value : Number} (h : chain.value.outcome = .ok value) :
    Conserves chain.numbers chain.value.events [value] := by
  rw [Chain.value, products_eq] at h ⊢
  obtain ⟨products, hproducts, htotal, hevents⟩ := Journaled.exists_of_bind_ok h
  rw [hevents]
  exact (conserves_productsFrom hproducts).trans (conserves_total htotal)

end Chain

end Calculator
