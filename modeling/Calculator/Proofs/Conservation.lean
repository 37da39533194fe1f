import Calculator.Number.Bits
import Calculator.Proofs.Rounds

/-!
# Numbers are conserved

`valueOf_conserves`: whatever the nesting, an evaluation that comes to a value takes each number of the
tokens once, and each result once but the last. So every operation makes one number less, and every
round one group less.
-/

namespace Calculator

namespace Token

def number? : Token → Option Number
  | number value => some value
  | _ => none

def numbers (tokens : List Token) : List Number := tokens.filterMap number?

theorem numbers_append (tokens others : List Token) :
    numbers (tokens ++ others) = numbers tokens ++ numbers others :=
  List.filterMap_append

theorem length_numbers (tokens : List Token) : (numbers tokens).length = tokens.countP isNumber := by
  induction tokens with
  | nil => rfl
  | cons token tokens ih =>
    rw [← List.singleton_append, numbers_append, List.length_append, List.countP_append, ih]
    cases token <;> rfl

end Token

theorem Chain.numbers_toTokens (chain : Chain) : Token.numbers chain.toTokens = chain.numbers := by
  obtain ⟨first, links⟩ := chain
  induction links generalizing first with
  | nil => rfl
  | cons link links ih => exact congrArg (first :: ·) (ih link.2)

/-! ## Signs -/

theorem Sign.magnitude_apply (sign : Sign) (x : Number) :
    (sign.apply x).magnitude = x.magnitude := by
  cases sign with
  | plus => rfl
  | minus => exact x.magnitude_negate

theorem Joins.map_magnitude {previous : Option Token} {tokens joined : List Token}
    (h : Joins previous tokens joined) :
    (Token.numbers joined).map Number.magnitude = (Token.numbers tokens).map Number.magnitude := by
  induction h with
  | nil => rfl
  | @keep _ token tokens joined _ ih =>
    rw [← List.singleton_append, ← @List.singleton_append _ token tokens, Token.numbers_append,
      Token.numbers_append, List.map_append, List.map_append, ih]
  | @join _ op sign value _ _ _ _ _ _ ih =>
    exact congrArg₂ List.cons (sign.magnitude_apply value) ih

theorem conserves_absorbSigns (tokens : List Token) :
    Conserves (Token.numbers tokens) [] (Token.numbers (absorbSigns tokens)) := by
  refine .of_magnitudes ?_
  rw [magnitudes, magnitudes, (joins_absorbSignsAfter none tokens).map_magnitude.symm]
  rfl

/-! ## Groups -/

theorem conserves_valueOfFlat {tokens : List Token} {value : Number}
    (h : (valueOfFlat tokens).outcome = .ok value) :
    Conserves (Token.numbers tokens) (valueOfFlat tokens).events [value] := by
  obtain ⟨chain, rfl, hvalue⟩ := exists_chain_of_valueOfFlat h
  have hchain : (Journaled.ofExcept (Chain.ofTokens chain.toTokens)).outcome = .ok chain :=
    chain.ofTokens_toTokens
  rw [chain.numbers_toTokens, valueOfFlat, Journaled.events_bind_ok hchain]
  exact chain.conserves_value hvalue

theorem Group.numbers_tokens (group : Group) : Token.numbers group.tokens =
    Token.numbers group.before ++ (Token.numbers group.inside ++ Token.numbers group.behind) := by
  rw [tokens, Token.numbers_append]
  congr 1
  exact Token.numbers_append ..

theorem Group.numbers_replaceBy (group : Group) (value : Number) :
    Token.numbers (group.replaceBy value) =
      Token.numbers group.before ++ ([value] ++ Token.numbers group.behind) :=
  Token.numbers_append ..

theorem Round.conserves {round : Round} (h : groupValue round.group.inside = .ok round.value) :
    Conserves (Token.numbers round.group.tokens) round.events (Token.numbers round.result) := by
  have hinside := (conserves_absorbSigns round.group.inside).trans (conserves_valueOfFlat h)
  rw [round.group.numbers_tokens, result, round.group.numbers_replaceBy]
  exact (hinside.frame _ _).snoc rfl rfl

/-- At any time, the numbers that are left and the operations so far make up for those there were at
first. -/
theorem Rounds.conserves {tokens current : List Token} {rounds : List Round}
    (h : Rounds tokens rounds current) :
    Conserves (Token.numbers tokens) (rounds.flatMap Round.events) (Token.numbers current) := by
  induction h with
  | nil => exact .refl _
  | cons hlast hvalue h ih =>
    rw [← Group.tokens_of_last? hlast]
    exact (Round.conserves hvalue).trans ih

theorem Rounds.count_opening {tokens current : List Token} {rounds : List Round}
    (h : Rounds tokens rounds current) :
    tokens.count .opening = rounds.length + current.count .opening := by
  induction h with
  | nil => simp
  | @cons _ _ round _ hlast hvalue h ih =>
    obtain ⟨hgroup, rfl⟩ := Group.last?_eq_some_iff.1 hlast
    have hinside := List.count_eq_zero.2 hgroup.opening_inside
    rw [@count_opening_tokens round.group round.value, hinside, List.length_cons]
    have hresult : round.result = round.group.replaceBy round.value := rfl
    rw [hresult] at ih
    omega

/-! ## Values -/

theorem Ends.eq_of_ok {current flat : List Token} {ending : Journaled (List Token)}
    (h : Ends current ending) (hflat : ending.outcome = .ok flat) :
    flat = current ∧ ending.events = [] ∧ Token.opening ∉ current := by
  have hopening := h.opening_not_mem_iff.2 (Or.inl ⟨flat, hflat⟩)
  cases h with
  | flat hlast =>
    cases hflat
    exact ⟨rfl, rfl, hopening⟩
  | unmatched hlast => cases hflat
  | withoutValue hlast hvalue => cases hflat

/-- Tokens that have a value go through rounds until they are those of a chain. -/
theorem exists_rounds_of_valueOf {tokens : List Token} {value : Number}
    (h : (valueOf tokens).outcome = .ok value) : ∃ rounds flat, Rounds tokens rounds flat ∧
      Token.opening ∉ flat ∧ (valueOfFlat flat).outcome = .ok value ∧
      (valueOf tokens).events = rounds.flatMap Round.events ++ (valueOfFlat flat).events := by
  obtain ⟨rounds, current, ending, hrounds, hends, hcollapse⟩ := exists_rounds tokens
  obtain ⟨flat, hflat, hvalue, hvalueOf⟩ := Journaled.exists_of_bind_ok h
  have hending : ending.outcome = .ok flat := by rwa [hcollapse] at hflat
  obtain ⟨rfl, hevents, hopening⟩ := hends.eq_of_ok hending
  refine ⟨rounds, flat, hrounds, hopening, hvalue, ?_⟩
  rw [valueOf, hvalueOf, hcollapse, hevents, List.append_nil]

theorem Round.mem_events {round : Round} {event : Event} (h : event ∈ round.events) :
    event.IsPerformed ∨ event.isGroup = true := by
  rcases List.mem_append.1 h with hoperation | hrecord
  · exact Or.inl (isPerformed_valueOfFlat _ event hoperation)
  · rw [List.mem_singleton.1 hrecord]
    exact Or.inr rfl

/-- **No number is lost.** On the way to a value there is one operation for each number of the tokens
but one, and one round for each opening parenthesis; the journal says so and nothing else. Signs
apart, the numbers and the results are what the operations take, and the value. -/
theorem valueOf_conserves {tokens : List Token} {value : Number}
    (h : (valueOf tokens).outcome = .ok value) :
    (valueOf tokens).events.countP Event.isOperation + 1 = tokens.countP Token.isNumber ∧
    (valueOf tokens).events.countP Event.isGroup = tokens.count .opening ∧
    (∀ event ∈ (valueOf tokens).events, event.IsPerformed ∨ event.isGroup = true) ∧
    Conserves (Token.numbers tokens) (valueOf tokens).events [value] := by
  obtain ⟨rounds, flat, hrounds, hopening, hvalue, hevents⟩ := exists_rounds_of_valueOf h
  have hconserves : Conserves (Token.numbers tokens) (valueOf tokens).events [value] := by
    rw [hevents]
    exact hrounds.conserves.trans (conserves_valueOfFlat hvalue)
  refine ⟨?operations, ?groups, ?nothing, hconserves⟩
  case operations =>
    rw [← Token.length_numbers]
    exact hconserves.length_eq
  case groups =>
    rw [List.countP_eq_length_filter, hevents, List.filter_append, filter_isGroup_flatMap_events,
      filter_isGroup_valueOfFlat, List.append_nil, List.length_map, hrounds.count_opening,
      List.count_eq_zero.2 hopening, Nat.add_zero]
  case nothing =>
    intro event hevent
    rw [hevents] at hevent
    rcases List.mem_append.1 hevent with hevent | hevent
    · obtain ⟨round, -, hround⟩ := List.mem_flatMap.1 hevent
      exact Round.mem_events hround
    · exact Or.inl (isPerformed_valueOfFlat _ event hevent)

/-- The three groups of `(- 2)*((3))` take no operation, and its two numbers one. -/
theorem valueOf_conserves_sign_in_group :
    (valueOf [.opening, .operator .sub, .number 2, .closing, .operator .mul, .opening, .opening,
        .number 3, .closing, .closing]).outcome = .ok (-6) ∧
      (valueOf [.opening, .operator .sub, .number 2, .closing, .operator .mul, .opening, .opening,
        .number 3, .closing, .closing]).events.countP Event.isOperation = 1 ∧
      (valueOf [.opening, .operator .sub, .number 2, .closing, .operator .mul, .opening, .opening,
        .number 3, .closing, .closing]).events.countP Event.isGroup = 3 := by
  have hvalue : (valueOf [.opening, .operator .sub, .number 2, .closing, .operator .mul, .opening,
      .opening, .number 3, .closing, .closing]).outcome = .ok (-6) := by decide +kernel
  obtain ⟨hoperations, hgroups, -⟩ := valueOf_conserves hvalue
  exact ⟨hvalue, Nat.succ_injective hoperations, hgroups⟩

end Calculator
