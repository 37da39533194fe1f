import Calculator.Proofs.Operations
import Calculator.Proofs.Parentheses

/-!
# Rounds

Groups are replaced in rounds, one group a round. `exists_rounds`: the journal holds what each round
says, in their order, and then what is said of the group that has no value, if that is how it ends.
-/

namespace Calculator

/-- A group and the value that takes its place. -/
structure Round where
  group : Group
  value : Number

namespace Round

def result (round : Round) : List Token := round.group.replaceBy round.value

def record (round : Round) : Event :=
  .group round.group.openingIndex round.group.closingIndex round.value

/-- What the journal says of the round: how the value was worked out, and where it belongs. -/
def events (round : Round) : List Event :=
  (valueOfFlat (absorbSigns round.group.inside)).events ++ [round.record]

end Round

/-- The rounds lead from the first tokens to the last ones. Others may follow. -/
inductive Rounds : List Token → List Round → List Token → Prop
  | nil (tokens : List Token) : Rounds tokens [] tokens
  | cons {tokens current : List Token} {round : Round} {rounds : List Round}
      (hlast : Group.last? tokens = .ok (some round.group))
      (hvalue : groupValue round.group.inside = .ok round.value)
      (h : Rounds round.result rounds current) : Rounds tokens (round :: rounds) current

/-- What is said and done about tokens when there is no further round. -/
inductive Ends : List Token → Journaled (List Token) → Prop
  | flat {tokens : List Token} (h : Group.last? tokens = .ok none) : Ends tokens (pure tokens)
  | unmatched {tokens : List Token} {error : Error} (h : Group.last? tokens = .error error) :
      Ends tokens (Journaled.fail error)
  | withoutValue {tokens : List Token} {group : Group} {error : Error}
      (hlast : Group.last? tokens = .ok (some group)) (hvalue : groupValue group.inside = .error error) :
      Ends tokens ⟨(valueOfFlat (absorbSigns group.inside)).events, .error error⟩

theorem Rounds.of_append {tokens current : List Token} {earlier later : List Round} {round : Round}
    (h : Rounds tokens (earlier ++ round :: later) current) :
    Rounds tokens earlier round.group.tokens := by
  induction earlier generalizing tokens with
  | nil =>
    cases h with
    | cons hlast hvalue h =>
      rw [Group.tokens_of_last? hlast]
      exact .nil tokens
  | cons first earlier ih =>
    cases h with
    | cons hlast hvalue h => exact .cons hlast hvalue (ih h)

/-! ## What the journal says -/

theorem exists_rounds (tokens : List Token) : ∃ rounds current ending,
    Rounds tokens rounds current ∧ Ends current ending ∧
      collapseGroups tokens = ⟨rounds.flatMap Round.events ++ ending.events, ending.outcome⟩ := by
  induction tokens using Group.induction with
  | flat tokens h =>
    have hlast := Group.last?_flat h
    split at hlast
    · exact ⟨[], _, _, .nil _, .unmatched hlast, collapseGroups_of_error hlast⟩
    · exact ⟨[], _, _, .nil _, .flat hlast, collapseGroups_of_none hlast⟩
  | unclosed before after ho hc =>
    have hlast := Group.last?_unclosed before ho hc
    exact ⟨[], _, _, .nil _, .unmatched hlast, collapseGroups_of_error hlast⟩
  | last group h ih =>
    have hlast := Group.last?_tokens h
    rw [collapseGroups_of_some hlast]
    cases hvalue : groupValue group.inside with
    | error error =>
      rw [Journaled.bind_error hvalue]
      exact ⟨[], _, _, .nil _, .withoutValue hlast hvalue, rfl⟩
    | ok value =>
      obtain ⟨rounds, current, ending, hrounds, hends, hcollapse⟩ := ih value
      refine ⟨⟨group, value⟩ :: rounds, current, ending, .cons hlast hvalue hrounds, hends, ?_⟩
      rw [Journaled.bind_ok hvalue, Journaled.bind_ok rfl, hcollapse]
      simp [Round.events, Round.record, Journaled.record]

theorem filter_isGroup_valueOfFlat (tokens : List Token) :
    (valueOfFlat tokens).events.filter Event.isGroup = [] := by
  rw [List.filter_eq_nil_iff]
  intro event hevent
  rw [(isPerformed_valueOfFlat tokens event hevent).isGroup]
  exact Bool.false_ne_true

theorem Round.filter_isGroup_events (round : Round) :
    round.events.filter Event.isGroup = [round.record] := by
  rw [events, List.filter_append, filter_isGroup_valueOfFlat]
  rfl

theorem filter_isGroup_flatMap_events (rounds : List Round) :
    (rounds.flatMap Round.events).filter Event.isGroup = rounds.map Round.record := by
  induction rounds with
  | nil => rfl
  | cons round rounds ih =>
    rw [List.flatMap_cons, List.filter_append, round.filter_isGroup_events, ih]
    rfl

theorem Ends.filter_isGroup {current : List Token} {ending : Journaled (List Token)}
    (h : Ends current ending) : ending.events.filter Event.isGroup = [] := by
  cases h with
  | flat => rfl
  | unmatched => rfl
  | withoutValue => exact filter_isGroup_valueOfFlat _

/-- Opening parentheses are left only if one of them has no partner or its group no value. -/
theorem Ends.opening_not_mem_iff {current : List Token} {ending : Journaled (List Token)}
    (h : Ends current ending) : Token.opening ∉ current ↔
      (∃ flat, ending.outcome = .ok flat) ∨ ending.outcome = .error (.unmatched ')') := by
  rw [Group.opening_not_mem_iff]
  cases h with
  | flat hlast => simp [hlast]
  | unmatched hlast => simp [hlast, Journaled.fail, Journaled.ofExcept]
  | withoutValue hlast hvalue =>
    rw [hlast]
    constructor
    · rintro (h | h) <;> cases h
    · rintro (⟨flat, h⟩ | h) <;> cases h
      exact absurd hvalue (groupValue_ne_unmatched _ _)

end Calculator
