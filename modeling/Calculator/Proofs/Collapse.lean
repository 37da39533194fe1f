import Calculator.Proofs.Nesting
import Calculator.Proofs.RightmostGroup

/-!
# Collapsing a tree of groups

The tree of balanced tokens is evaluated by recursion: the groups of a sequence from right to left,
and each after the groups inside it. `outcome_valueOf_of_balanced`: replacing the right-most group
again and again comes to the same value or error.
-/

namespace Calculator

/-- The value of a group's contents once there are no groups left in them. -/
def groupValue (flat : List Token) : Except Error Number := (valueOfFlat (absorbSigns flat)).outcome

theorem outcome_collapseGroups_group {group : Group} (h : group.IsLast) :
    (collapseGroups group.tokens).outcome =
      groupValue group.inside >>= fun value => (collapseGroups (group.replaceBy value)).outcome :=
  outcome_collapseGroups_tokens h

theorem outcome_valueOf_group {group : Group} (h : group.IsLast) :
    (valueOf group.tokens).outcome =
      groupValue group.inside >>= fun value => (valueOf (group.replaceBy value)).outcome := by
  simp only [outcome_valueOf, outcome_collapseGroups_group h, bind_assoc]

namespace Nesting

/-- The sequence with numbers in place of its groups. -/
def collapse : Nesting → Except Error (List Token)
  | empty => return []
  | number value rest => return .number value :: (← rest.collapse)
  | operator op rest => return .operator op :: (← rest.collapse)
  | group inside rest => do
    let behind ← rest.collapse
    let value ← inside.collapse >>= groupValue
    return .number value :: behind

/-- The value of the whole sequence. No signs are joined to numbers outside groups. -/
def value (nesting : Nesting) : Except Error Number := do
  (valueOfFlat (← nesting.collapse)).outcome

/-- The tokens outside groups, and `none` for each group. -/
def topLevel : Nesting → List (Option Token)
  | empty => []
  | number value rest => some (.number value) :: rest.topLevel
  | operator op rest => some (.operator op) :: rest.topLevel
  | group _ rest => none :: rest.topLevel

/-- The errors of the groups that have no value, in the order of their opening parentheses. -/
def groupErrors : Nesting → List Error
  | empty => []
  | number _ rest => rest.groupErrors
  | operator _ rest => rest.groupErrors
  | group inside rest =>
    match inside.collapse >>= groupValue with
    | .ok _ => inside.groupErrors ++ rest.groupErrors
    | .error error => error :: (inside.groupErrors ++ rest.groupErrors)

/-! ## The recursive evaluation -/

/-- A token in place of an item of `topLevel`: the token itself, or some number for a group. -/
def Stands : Option Token → Token → Prop
  | some token, result => result = token
  | none, result => ∃ value, result = .number value

theorem forall₂_stands_of_collapse {nesting : Nesting} {flat : List Token}
    (h : nesting.collapse = .ok flat) : List.Forall₂ Stands nesting.topLevel flat := by
  induction nesting generalizing flat with
  | empty => cases h; exact .nil
  | number value rest ih =>
    obtain ⟨behind, hr, hb⟩ := bind_eq_ok.1 h
    cases hb
    exact .cons rfl (ih hr)
  | operator op rest ih =>
    obtain ⟨behind, hr, hb⟩ := bind_eq_ok.1 h
    cases hb
    exact .cons rfl (ih hr)
  | group inside rest ihi ihr =>
    obtain ⟨behind, hr, hb⟩ := bind_eq_ok.1 h
    obtain ⟨value, hv, he⟩ := bind_eq_ok.1 hb
    cases he
    exact .cons ⟨value, rfl⟩ (ihr hr)

theorem not_mem_of_collapse {nesting : Nesting} {flat : List Token}
    (h : nesting.collapse = .ok flat) : Token.opening ∉ flat ∧ Token.closing ∉ flat := by
  induction nesting generalizing flat with
  | empty => cases h; simp
  | number value rest ih =>
    obtain ⟨behind, hr, hb⟩ := bind_eq_ok.1 h
    cases hb
    simpa using ih hr
  | operator op rest ih =>
    obtain ⟨behind, hr, hb⟩ := bind_eq_ok.1 h
    cases hb
    simpa using ih hr
  | group inside rest ihi ihr =>
    obtain ⟨behind, hr, hb⟩ := bind_eq_ok.1 h
    obtain ⟨value, hv, he⟩ := bind_eq_ok.1 hb
    cases he
    simpa using ihr hr

/-- Of several groups without value, the one that opens last is worked out first. -/
theorem getLast?_groupErrors (nesting : Nesting) :
    nesting.groupErrors.getLast? =
      match nesting.collapse with
      | .ok _ => none
      | .error error => some error := by
  induction nesting with
  | empty => rfl
  | number value rest ih =>
    simp only [groupErrors, collapse, ih]
    cases rest.collapse <;> rfl
  | operator op rest ih =>
    simp only [groupErrors, collapse, ih]
    cases rest.collapse <;> rfl
  | group inside rest ihi ihr =>
    simp only [groupErrors, collapse]
    cases hr : rest.collapse with
    | error error =>
      rw [hr] at ihr
      cases inside.collapse >>= groupValue <;> simp [List.getLast?_append, List.getLast?_cons, ihr]
    | ok behind =>
      rw [hr] at ihr
      cases hi : inside.collapse with
      | error error =>
        rw [hi] at ihi
        simp [List.getLast?_append, List.getLast?_cons, ihr, ihi]
      | ok flat =>
        rw [hi] at ihi
        cases hv : groupValue flat <;>
          simp [List.getLast?_append, List.getLast?_cons, ihr, ihi, hv, pure, Except.pure]

end Nesting

/-! ## The right-most group first -/

/-- In a text that opens no group behind it, a tree is collapsed before anything in front of it. -/
theorem outcome_collapseGroups_toTokens (nesting : Nesting) (before : List Token)
    {behind : List Token} (h : Token.opening ∉ behind) :
    (collapseGroups (before ++ (nesting.toTokens ++ behind))).outcome =
      nesting.collapse >>= fun flat => (collapseGroups (before ++ (flat ++ behind))).outcome := by
  induction nesting generalizing before behind with
  | empty => rfl
  | number value rest ih =>
    have hr := ih (before ++ [.number value]) h
    simpa [Nesting.toTokens, Nesting.collapse] using hr
  | operator op rest ih =>
    have hr := ih (before ++ [.operator op]) h
    simpa [Nesting.toTokens, Nesting.collapse] using hr
  | group inside rest ihi ihr =>
    have hr := ihr (before ++ .opening :: (inside.toTokens ++ [.closing])) h
    simp only [Nesting.toTokens, Nesting.collapse, List.cons_append, List.append_assoc,
      List.nil_append, bind_assoc, pure_bind] at hr ⊢
    rw [hr]
    cases hc : rest.collapse with
    | error error => rfl
    | ok flatRest =>
      have hb : Token.opening ∉ Token.closing :: (flatRest ++ behind) := by
        simp [(Nesting.not_mem_of_collapse hc).1, h]
      have hi := ihi (before ++ [.opening]) hb
      simp only [List.cons_append, List.append_assoc, List.nil_append] at hi
      simp only [ok_bind, hi]
      cases hf : inside.collapse with
      | error error => rfl
      | ok flat =>
        obtain ⟨ho, hcl⟩ := Nesting.not_mem_of_collapse hf
        have hlast : Group.IsLast ⟨before, flat, flatRest ++ behind⟩ :=
          ⟨ho, hcl, fun hm => hb (List.mem_cons_of_mem _ hm)⟩
        exact outcome_collapseGroups_tokens hlast

theorem outcome_collapseGroups_eq_collapse (nesting : Nesting) :
    (collapseGroups nesting.toTokens).outcome = nesting.collapse := by
  have h := @outcome_collapseGroups_toTokens nesting [] [] List.not_mem_nil
  simp only [List.nil_append, List.append_nil] at h
  rw [h]
  cases hc : nesting.collapse with
  | error error => rfl
  | ok flat =>
    obtain ⟨ho, hcl⟩ := Nesting.not_mem_of_collapse hc
    rw [ok_bind, collapseGroups_flat ho, if_neg hcl]

theorem outcome_valueOf_toTokens (nesting : Nesting) :
    (valueOf nesting.toTokens).outcome = nesting.value := by
  rw [outcome_valueOf, outcome_collapseGroups_eq_collapse]
  rfl

/-- **Recursive evaluation.** Balanced tokens are those of one tree, and have its value or error.
Once the groups have values, the tokens outside them are still there and in order. If groups have no
value, the error is that of the one that opens last. -/
theorem outcome_valueOf_of_balanced {tokens : List Token} (h : Balanced tokens) :
    ∃ nesting : Nesting, (∀ other : Nesting, other.toTokens = tokens ↔ other = nesting) ∧
      (valueOf tokens).outcome = nesting.value ∧
      (collapseGroups tokens).outcome = nesting.collapse ∧
      (∀ flat, nesting.collapse = .ok flat → List.Forall₂ Nesting.Stands nesting.topLevel flat) ∧
      ∀ error, nesting.groupErrors.getLast? = some error →
        (valueOf tokens).outcome = .error error := by
  obtain ⟨nesting, rfl⟩ := h.exists_toTokens
  refine ⟨nesting, fun other => ⟨Nesting.toTokens_injective, fun he => he ▸ rfl⟩,
    outcome_valueOf_toTokens nesting, outcome_collapseGroups_eq_collapse nesting,
    fun flat => Nesting.forall₂_stands_of_collapse, ?_⟩
  intro error he
  rw [Nesting.getLast?_groupErrors] at he
  rw [outcome_valueOf_toTokens, Nesting.value]
  cases hc : nesting.collapse with
  | ok flat => rw [hc] at he; cases he
  | error error' => rw [hc] at he; cases he; rfl

/-- Of `()` and `(1/(0))` both have no value. The division is worked out first. -/
theorem outcome_valueOf_two_groups_without_value :
    Balanced [.opening, .closing, .operator .add, .opening, .number 1, .operator .div, .opening,
        .number 0, .closing, .closing] ∧
      (valueOf [.opening, .closing, .operator .add, .opening, .number 1, .operator .div, .opening,
        .number 0, .closing, .closing]).outcome = .error .divisionByZero := by
  have hb : Balanced [.opening, .closing, .operator .add, .opening, .number 1, .operator .div,
      .opening, .number 0, .closing, .closing] := by decide
  obtain ⟨nesting, hn, -, -, -, herror⟩ := outcome_valueOf_of_balanced hb
  have hnesting := (hn (.group .empty (.operator .add (.group
    (.number 1 (.operator .div (.group (.number 0 .empty) .empty))) .empty)))).1 rfl
  subst hnesting
  exact ⟨hb, herror _ (by decide)⟩

end Calculator
