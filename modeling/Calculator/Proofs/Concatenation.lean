import Calculator.Proofs.Enclosure
import Calculator.Proofs.Replacement
import Calculator.Proofs.SumOfTerms

/-!
# Tokens one after the other

Two lists of tokens that have values have a value together only with one operator in between.
`outcome_valueOf_operator_between`: the one thing that can go wrong then is a division by the first
operand of the second list. Without the operator, or with one in front or behind, nothing is a chain.
-/

namespace Calculator

/-- The operand that the tokens begin with: a number, or a group by its value. -/
inductive FirstOperand : List Token → Number → Prop
  | number (value : Number) (rest : List Token) : FirstOperand (.number value :: rest) value
  | group {inside : List Token} {value : Number} (hinside : Balanced inside)
      (hvalue : (valueOf (grouped inside)).outcome = .ok value) (rest : List Token) :
      FirstOperand (grouped inside ++ rest) value

/-! ## Chains behind each other -/

namespace Chain

/-- Only links continue a chain. -/
theorem ofTokens?_toTokens_append (chain : Chain) (rest : List Token) :
    ofTokens? (chain.toTokens ++ rest) =
      (linksOfTokens? rest).map fun links => ⟨chain.first, chain.links ++ links⟩ := by
  rw [toTokens, List.cons_append, ofTokens?_number, linksOfTokens?_append, Option.map_map]
  rfl

end Chain

theorem dividesByZero_append {links links' : List (Operator × Number)} :
    DividesByZero (links ++ links') ↔ DividesByZero links ∨ DividesByZero links' := by
  simp only [DividesByZero, List.mem_append, or_and_right, exists_or]

theorem Chain.not_dividesByZero {chain : Chain} {value : Number}
    (h : chain.value.outcome = .ok value) : ¬ DividesByZero chain.links := by
  intro hzero
  rw [outcome_value_ofChain, if_pos hzero] at h
  cases h

/-- Of the divisions in two chains with values, only the one between them can be refused. -/
theorem Chain.dividesByZero_between {chain other : Chain} {a b : Number}
    (ha : chain.value.outcome = .ok a) (hb : other.value.outcome = .ok b) (op : Operator) :
    DividesByZero (chain.append op other).links ↔
      op = .div ∧ (other.first = 0 ∨ other.first = -0.0) := by
  rw [append, dividesByZero_append, dividesByZero_cons]
  simp only [chain.not_dividesByZero ha, other.not_dividesByZero hb, false_or, or_false]

/-! ## Groups of both -/

theorem outcome_collapseGroups_append {left right flatLeft flatRight : List Token}
    (hleft : (collapseGroups left).outcome = .ok flatLeft)
    (hright : (collapseGroups right).outcome = .ok flatRight) :
    (collapseGroups (left ++ right)).outcome = .ok (flatLeft ++ flatRight) := by
  obtain ⟨nesting, rfl⟩ := (balanced_of_collapseGroups hleft).exists_toTokens
  obtain ⟨other, rfl⟩ := (balanced_of_collapseGroups hright).exists_toTokens
  rw [outcome_collapseGroups_eq_collapse] at hleft hright
  obtain ⟨hol, hcl⟩ := Nesting.not_mem_of_collapse hleft
  obtain ⟨hor, hcr⟩ := Nesting.not_mem_of_collapse hright
  -- the groups of the right list come first, then those of the left one
  have hsecond := outcome_collapseGroups_toTokens other nesting.toTokens List.not_mem_nil
  have hfirst := outcome_collapseGroups_toTokens nesting [] hor
  rw [hright, ok_bind] at hsecond
  rw [hleft, ok_bind] at hfirst
  simp only [List.append_nil, List.nil_append] at hsecond hfirst
  rw [hsecond, hfirst, collapseGroups_flat (by simp [hol, hor]), if_neg (by simp [hcl, hcr])]

theorem outcome_valueOf_append {left right flatLeft flatRight : List Token}
    (hleft : (collapseGroups left).outcome = .ok flatLeft)
    (hright : (collapseGroups right).outcome = .ok flatRight) :
    (valueOf (left ++ right)).outcome = (valueOfFlat (flatLeft ++ flatRight)).outcome := by
  rw [outcome_valueOf, outcome_collapseGroups_append hleft hright, ok_bind]

theorem collapseGroups_operator (op : Operator) :
    (collapseGroups [.operator op]).outcome = .ok [.operator op] := by
  rw [collapseGroups_flat (by simp), if_neg (by simp)]

/-! ## The first operand -/

theorem Balanced.ne_append_closing {inside other more : List Token} (h : Balanced inside)
    (hother : Balanced other) : inside ≠ other ++ .closing :: more := by
  rintro rfl
  have hfront := h.front (other ++ [.closing]) ⟨more, by simp⟩
  have htotal := hother.total
  simp only [List.count_append, List.count_singleton, reduceCtorEq, beq_iff_eq, ite_true,
    ite_false] at hfront
  omega

/-- A group ends where its contents are balanced. -/
theorem Balanced.eq_of_append_closing {inside other rest rest' : List Token} (h : Balanced inside)
    (hother : Balanced other) (htokens : inside ++ .closing :: rest = other ++ .closing :: rest') :
    inside = other := by
  rcases List.append_eq_append_iff.1 htokens with ⟨more, hmore, hrest⟩ | ⟨more, hmore, hrest⟩
  · cases more with
    | nil => simpa using hmore.symm
    | cons token more =>
      obtain ⟨rfl, -⟩ := List.cons.inj hrest
      exact absurd hmore (hother.ne_append_closing h)
  · cases more with
    | nil => simpa using hmore
    | cons token more =>
      obtain ⟨rfl, -⟩ := List.cons.inj hrest
      exact absurd hmore (h.ne_append_closing hother)

theorem outcome_valueOf_group_toTokens (inside : Nesting) :
    (valueOf (grouped inside.toTokens)).outcome = inside.collapse >>= groupValue := by
  have htokens : grouped inside.toTokens = (Nesting.group inside .empty).toTokens := rfl
  rw [htokens, outcome_valueOf_toTokens, Nesting.value, collapse_group_empty]
  simp only [bind_assoc, ok_bind, outcome_valueOfFlat_number, bind_ok_right]

/-- The first operand is the number that the collapsed tokens begin with. -/
theorem firstOperand_iff {tokens : List Token} {chain : Chain}
    (h : (collapseGroups tokens).outcome = .ok chain.toTokens) {x : Number} :
    FirstOperand tokens x ↔ x = chain.first := by
  obtain ⟨nesting, rfl⟩ := (balanced_of_collapseGroups h).exists_toTokens
  rw [outcome_collapseGroups_eq_collapse] at h
  cases nesting with
  | empty => cases h
  | operator op rest =>
    obtain ⟨behind, -, hflat⟩ := bind_eq_ok.1 h
    cases hflat
  | number value rest =>
    obtain ⟨behind, -, hflat⟩ := bind_eq_ok.1 h
    obtain rfl : value = chain.first := Token.number.inj (List.cons.inj (Except.ok.inj hflat)).1
    constructor
    · rintro ⟨⟩
      rfl
    · rintro rfl
      exact .number ..
  | group inside rest =>
    obtain ⟨behind, -, hvalue⟩ := bind_eq_ok.1 h
    obtain ⟨value, hinside, hflat⟩ := bind_eq_ok.1 hvalue
    obtain rfl : value = chain.first := Token.number.inj (List.cons.inj (Except.ok.inj hflat)).1
    obtain ⟨flat, hcollapse, -⟩ := bind_eq_ok.1 hinside
    have hbalanced : Balanced inside.toTokens := by
      rw [← outcome_collapseGroups_eq_collapse] at hcollapse
      exact balanced_of_collapseGroups hcollapse
    have hgroup := outcome_valueOf_group_toTokens inside
    rw [hinside] at hgroup
    constructor
    · intro hx
      generalize htokens : (Nesting.group inside rest).toTokens = tokens at hx
      cases hx with
      | number => cases htokens
      | group hother hother' rest' =>
        rw [grouped_append] at htokens
        obtain rfl := hbalanced.eq_of_append_closing hother (List.cons.inj htokens).2
        rw [hgroup] at hother'
        exact (Except.ok.inj hother').symm
    · rintro rfl
      have hfirst := FirstOperand.group hbalanced hgroup rest.toTokens
      rwa [grouped_append] at hfirst

/-! ## Values -/

/-- **Two lists with values.** With an operator in between they have a value, unless it is a division
and the first operand of the second list is zero. Without an operator in between they have none, and
neither does one of them with an operator in front or behind. -/
theorem outcome_valueOf_operator_between {left right : List Token} {a b : Number}
    (ha : (valueOf left).outcome = .ok a) (hb : (valueOf right).outcome = .ok b) (op : Operator) :
    (∃ first, (∀ x, FirstOperand right x ↔ x = first) ∧
      (op = .div ∧ (first = 0 ∨ first = -0.0) →
        (valueOf (left ++ .operator op :: right)).outcome = .error .divisionByZero) ∧
      (¬ (op = .div ∧ (first = 0 ∨ first = -0.0)) →
        ∃ value, (valueOf (left ++ .operator op :: right)).outcome = .ok value)) ∧
    (valueOf (left ++ right)).outcome = .error .malformed ∧
    (valueOf (left ++ [.operator op])).outcome = .error .malformed ∧
    (valueOf (.operator op :: left)).outcome = .error .malformed := by
  obtain ⟨chain, hleft, hchain⟩ := exists_collapsed_of_valueOf ha
  obtain ⟨other, hright, hother⟩ := exists_collapsed_of_valueOf hb
  have hop := collapseGroups_operator op
  have hbetween := outcome_valueOf_append hleft (outcome_collapseGroups_append hop hright)
  simp only [List.singleton_append, chain.toTokens_append_operator, outcome_valueOfFlat_toTokens,
    Chain.outcome_value_ofChain, chain.dividesByZero_between hchain hother] at hbetween
  refine ⟨⟨other.first, fun x => firstOperand_iff hright, ?zero, ?value⟩, ?apart, ?behind, ?front⟩
  case zero =>
    intro hzero
    rw [hbetween, if_pos hzero]
  case value =>
    intro hzero
    rw [hbetween, if_neg hzero]
    exact ⟨_, rfl⟩
  case apart =>
    rw [outcome_valueOf_append hleft hright]
    exact outcome_valueOfFlat_of_none (chain.ofTokens?_toTokens_append _)
  case behind =>
    rw [outcome_valueOf_append hleft hop]
    exact outcome_valueOfFlat_of_none (chain.ofTokens?_toTokens_append _)
  case front =>
    have hfront := outcome_valueOf_append hop hleft
    rw [List.singleton_append] at hfront
    rw [hfront]
    exact outcome_valueOfFlat_of_none rfl

/-- Behind `2*(3)` nothing can be divided by `(1-1)*5`, as `(1-1)` is its first operand. -/
theorem outcome_valueOf_operator_between_zero_group :
    (valueOf [.number 2, .operator .mul, .opening, .number 3, .closing]).outcome = .ok 6 ∧
      (valueOf [.opening, .number 1, .operator .sub, .number 1, .closing, .operator .mul,
        .number 5]).outcome = .ok 0 ∧
      FirstOperand [.opening, .number 1, .operator .sub, .number 1, .closing, .operator .mul,
        .number 5] 0 ∧
      (valueOf [.number 2, .operator .mul, .opening, .number 3, .closing, .operator .div, .opening,
        .number 1, .operator .sub, .number 1, .closing, .operator .mul, .number 5]).outcome =
        .error .divisionByZero := by
  have ha : (valueOf [.number 2, .operator .mul, .opening, .number 3, .closing]).outcome = .ok 6 := by
    decide +kernel
  have hb : (valueOf [.opening, .number 1, .operator .sub, .number 1, .closing, .operator .mul,
      .number 5]).outcome = .ok 0 := by decide +kernel
  have hgroup : (valueOf (grouped [.number 1, .operator .sub, .number 1])).outcome = .ok 0 := by
    decide +kernel
  have hfirst : FirstOperand [.opening, .number 1, .operator .sub, .number 1, .closing,
      .operator .mul, .number 5] 0 :=
    .group (by decide) hgroup [.operator .mul, .number 5]
  obtain ⟨first, hunique, hzero, -⟩ := (outcome_valueOf_operator_between ha hb .div).1
  obtain rfl := (hunique 0).1 hfirst
  exact ⟨ha, hb, hfirst, hzero ⟨rfl, Or.inl rfl⟩⟩

end Calculator
