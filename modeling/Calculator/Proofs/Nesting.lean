import Mathlib.Data.List.Infix
import Calculator.Token

/-!
# Nested groups

Tokens whose parentheses are in balance are those of a tree of groups (`Balanced.exists_toTokens`),
and of one tree only (`toTokens_injective`).
-/

namespace Calculator

/-- There are as many closing parentheses as opening ones, and never more up to any point. -/
structure Balanced (tokens : List Token) : Prop where
  total : tokens.count .opening = tokens.count .closing
  front : ∀ front, front <+: tokens → front.count .closing ≤ front.count .opening

instance (tokens : List Token) : Decidable (Balanced tokens) :=
  decidable_of_iff (tokens.count .opening = tokens.count .closing ∧
      ∀ front ∈ tokens.inits, front.count .closing ≤ front.count .opening)
    ⟨fun h => ⟨h.1, fun front hf => h.2 front ((List.mem_inits _ _).2 hf)⟩,
      fun h => ⟨h.total, fun front hf => h.front front ((List.mem_inits _ _).1 hf)⟩⟩

theorem Balanced.count_le_of_suffix {tokens behind : List Token} (h : Balanced tokens)
    (hb : behind <:+ tokens) : behind.count .opening ≤ behind.count .closing := by
  obtain ⟨front, rfl⟩ := hb
  have htotal := h.total
  have hfront := h.front front (List.prefix_append ..)
  simp only [List.count_append] at htotal
  omega

/-- A sequence of numbers, operators and groups. -/
inductive Nesting where
  | empty
  | number (value : Number) (rest : Nesting)
  | operator (op : Operator) (rest : Nesting)
  | group (inside rest : Nesting)

namespace Nesting

def toTokens : Nesting → List Token
  | empty => []
  | number value rest => .number value :: rest.toTokens
  | operator op rest => .operator op :: rest.toTokens
  | group inside rest => .opening :: (inside.toTokens ++ .closing :: rest.toTokens)

/-- The sequence up to the first closing parenthesis without partner, and those after each such
parenthesis. There are none if an opening parenthesis has no partner. -/
def parts? : List Token → Option (Nesting × List Nesting)
  | [] => some (empty, [])
  | .number value :: rest => (parts? rest).map fun (first, others) => (number value first, others)
  | .operator op :: rest => (parts? rest).map fun (first, others) => (operator op first, others)
  | .closing :: rest => (parts? rest).map fun (first, others) => (empty, first :: others)
  | .opening :: rest =>
    match parts? rest with
    | some (inside, next :: others) => some (group inside next, others)
    | _ => none

def partTokens (others : List Nesting) : List Token :=
  others.flatMap fun next => .closing :: next.toTokens

theorem eq_of_parts? {tokens : List Token} {first : Nesting} {others : List Nesting}
    (h : parts? tokens = some (first, others)) : tokens = first.toTokens ++ partTokens others := by
  induction tokens generalizing first others with
  | nil => cases h; rfl
  | cons token rest ih =>
    cases token with
    | number value =>
      obtain ⟨⟨first', others'⟩, hp, he⟩ := Option.map_eq_some_iff.1 h
      cases he
      rw [ih hp]; rfl
    | operator op =>
      obtain ⟨⟨first', others'⟩, hp, he⟩ := Option.map_eq_some_iff.1 h
      cases he
      rw [ih hp]; rfl
    | closing =>
      obtain ⟨⟨first', others'⟩, hp, he⟩ := Option.map_eq_some_iff.1 h
      cases he
      rw [ih hp]
      simp [partTokens, toTokens]
    | opening =>
      simp only [parts?] at h
      split at h
      · rename_i inside next others' hp
        cases h
        rw [ih hp]
        simp [partTokens, toTokens]
      · cases h

/-- What is behind a sequence does not change how it is read, if nothing there belongs to it. -/
theorem parts?_toTokens_append (nesting : Nesting) {behind : List Token} {others : List Nesting}
    (h : parts? behind = some (empty, others)) :
    parts? (nesting.toTokens ++ behind) = some (nesting, others) := by
  induction nesting generalizing behind others with
  | empty => exact h
  | number value rest ih => simp [toTokens, parts?, ih h]
  | operator op rest ih => simp [toTokens, parts?, ih h]
  | group inside rest ihi ihr =>
    have hrest : parts? (.closing :: (rest.toTokens ++ behind)) = some (empty, rest :: others) := by
      simp [parts?, ihr h]
    simp [toTokens, parts?, ihi hrest]

theorem toTokens_injective {nesting other : Nesting} (h : nesting.toTokens = other.toTokens) :
    nesting = other := by
  have key : ∀ n : Nesting, parts? n.toTokens = some (n, []) := by
    intro n
    have := @parts?_toTokens_append n [] [] rfl
    rwa [List.append_nil] at this
  have hn := key nesting
  rw [h, key other] at hn
  cases hn; rfl

theorem count_toTokens (nesting : Nesting) :
    nesting.toTokens.count .opening = nesting.toTokens.count .closing := by
  induction nesting with
  | empty => rfl
  | number value rest ih => simpa [toTokens] using ih
  | operator op rest ih => simpa [toTokens] using ih
  | group inside rest ihi ihr =>
    simp [toTokens, ihi, ihr]
    omega

theorem count_partTokens (others : List Nesting) :
    (partTokens others).count .opening + others.length = (partTokens others).count .closing := by
  induction others with
  | nil => rfl
  | cons next others ih =>
    have hn := count_toTokens next
    simp only [partTokens, List.flatMap_cons, List.cons_append, List.count_cons, List.count_append,
      List.length_cons] at ih ⊢
    simp only [reduceCtorEq, beq_iff_eq, ite_true, ite_false]
    omega

/-- An opening parenthesis is without partner only if more are opened than closed from some point
on. -/
theorem exists_parts? {tokens : List Token}
    (h : ∀ behind, behind <:+ tokens → behind.count .opening ≤ behind.count .closing) :
    ∃ first others, parts? tokens = some (first, others) := by
  induction tokens with
  | nil => exact ⟨empty, [], rfl⟩
  | cons token rest ih =>
    obtain ⟨first, others, hp⟩ := ih fun behind hb => h behind (hb.trans (List.suffix_cons ..))
    cases token with
    | number value => exact ⟨_, _, by simp [parts?, hp]; exact ⟨rfl, rfl⟩⟩
    | operator op => exact ⟨_, _, by simp [parts?, hp]; exact ⟨rfl, rfl⟩⟩
    | closing => exact ⟨_, _, by simp [parts?, hp]; exact ⟨rfl, rfl⟩⟩
    | opening =>
      -- the new opening parenthesis takes the first closing one that has no partner yet
      have hall := h _ (List.suffix_refl _)
      have hfirst := count_toTokens first
      have hothers := count_partTokens others
      rw [eq_of_parts? hp] at hall
      simp only [List.count_cons, List.count_append] at hall
      simp only [reduceCtorEq, beq_iff_eq, ite_true, ite_false] at hall
      cases others with
      | nil => simp at hothers; omega
      | cons next others => exact ⟨group first next, others, by simp [parts?, hp]⟩

end Nesting

theorem Balanced.exists_toTokens {tokens : List Token} (h : Balanced tokens) :
    ∃ nesting : Nesting, nesting.toTokens = tokens := by
  obtain ⟨first, others, hp⟩ := Nesting.exists_parts? fun behind hb => h.count_le_of_suffix hb
  have htokens := Nesting.eq_of_parts? hp
  have htotal := h.total
  have hfirst := Nesting.count_toTokens first
  have hothers := Nesting.count_partTokens others
  rw [htokens, List.count_append, List.count_append] at htotal
  have hnone : others = [] := List.eq_nil_of_length_eq_zero (by omega)
  subst hnone
  exact ⟨first, by simpa [Nesting.partTokens] using htokens.symm⟩

end Calculator
