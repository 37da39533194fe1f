import Calculator.Proofs.Rounds

/-!
# Where the groups are

As the right-most group is always the next one, nothing in front of it has been touched when its round
comes (`Rounds.prefix_of_prefix`). `collapseGroups_inPlace`: so the journal shows the opening
parentheses where they were at first, from the last one on.
-/

namespace Calculator

/-- The indexes of the opening parentheses, from left to right. -/
def openingIndexes (tokens : List Token) : List Nat := tokens.findIdxs Token.isOpening

def Event.openingIndex? : Event → Option Nat
  | .group opening _ _ => some opening
  | _ => none

/-! ## In front of the group -/

section
variable {tokens current : List Token} {rounds : List Round}

/-- The opening parentheses that a round leaves are in front of its group. -/
theorem Group.IsLast.prefix_before {group : Group} (h : group.IsLast) {value : Number}
    {front : List Token} (hfront : front ++ [Token.opening] <+: group.replaceBy value) :
    front ++ [Token.opening] <+: group.before := by
  rcases List.prefix_or_prefix_of_prefix hfront (List.prefix_append _ _) with hbefore | hbefore
  · exact hbefore
  · rcases List.prefix_concat_iff.1 hbefore with heq | ⟨between, rfl⟩
    · exact heq ▸ List.prefix_refl _
    · -- it cannot be behind the number, as nothing is opened there
      rw [Group.replaceBy, List.append_assoc, List.prefix_append_right_inj] at hfront
      have hbehind : Token.opening ∈ Token.number value :: group.behind :=
        hfront.subset (List.mem_append_right _ (List.mem_singleton_self _))
      exact absurd hbehind (by simp [h.opening_behind])

/-- An opening parenthesis that is left after some rounds is where it was at first, and so is all that
is in front of it. -/
theorem Rounds.prefix_of_prefix (h : Rounds tokens rounds current) {front : List Token}
    (hfront : front ++ [Token.opening] <+: current) : front ++ [Token.opening] <+: tokens := by
  induction h with
  | nil => exact hfront
  | cons hlast hvalue h ih =>
    obtain ⟨hgroup, rfl⟩ := Group.last?_eq_some_iff.1 hlast
    exact (hgroup.prefix_before (ih hfront)).trans (List.prefix_append ..)

/-! ## Indexes -/

theorem openingIndexes_eq_nil_iff : openingIndexes tokens = [] ↔ Token.opening ∉ tokens := by
  rw [openingIndexes, List.findIdxs_eq_nil_iff]
  constructor
  · intro h hmem
    exact absurd (h _ hmem) (by decide)
  · intro h token hmem
    rw [Bool.eq_false_iff, ne_eq, Token.isOpening_iff]
    rintro rfl
    exact h hmem

theorem openingIndexes_append {front behind : List Token} (h : Token.opening ∉ behind) :
    openingIndexes (front ++ behind) = openingIndexes front := by
  have hbehind : behind.findIdxs Token.isOpening (0 + front.length) = [] :=
    List.findIdxs_eq_nil_iff.2 (List.findIdxs_eq_nil_iff.1 (openingIndexes_eq_nil_iff.2 h))
  rw [openingIndexes, List.findIdxs_append, hbehind, List.append_nil, openingIndexes]

theorem openingIndexes_concat (front : List Token) :
    openingIndexes (front ++ [Token.opening]) = openingIndexes front ++ [front.length] := by
  rw [openingIndexes, List.findIdxs_append, Nat.zero_add]
  rfl

theorem openingIndexes_tokens {group : Group} (h : group.IsLast) (value : Number) :
    openingIndexes group.tokens =
      openingIndexes (group.replaceBy value) ++ [group.openingIndex] := by
  have hbehind : Token.opening ∉ group.inside ++ .closing :: group.behind := by
    simp [h.opening_inside, h.opening_behind]
  have hnumber : Token.opening ∉ .number value :: group.behind := by simp [h.opening_behind]
  rw [Group.tokens, ← List.singleton_append, ← List.append_assoc, openingIndexes_append hbehind,
    openingIndexes_concat, Group.replaceBy, openingIndexes_append hnumber]
  rfl

/-- From right to left, the opening parentheses are those of the rounds, and then those that are
left. -/
theorem Rounds.openingIndexes_eq (h : Rounds tokens rounds current) :
    (openingIndexes tokens).reverse =
      rounds.map (fun round => round.group.openingIndex) ++ (openingIndexes current).reverse := by
  induction h with
  | nil => rfl
  | @cons _ _ round _ hlast hvalue h ih =>
    obtain ⟨hgroup, rfl⟩ := Group.last?_eq_some_iff.1 hlast
    rw [openingIndexes_tokens hgroup round.value, List.reverse_append, List.reverse_singleton]
    exact congrArg (round.group.openingIndex :: ·) ih

end

/-! ## The group in its place -/

/-- A group that is found in the tokens `current`, which once were the tokens `first`. -/
structure Group.InPlace (group : Group) (first current : List Token) : Prop where
  opening : current[group.openingIndex]? = some .opening
  closing : current[group.closingIndex]? = some .closing
  order : group.openingIndex < group.closingIndex ∧ group.closingIndex < current.length
  /-- In front of the group nothing has changed. -/
  before : current.take (group.openingIndex + 1) = first.take (group.openingIndex + 1)
  inside : group.inside = (current.take group.closingIndex).drop (group.openingIndex + 1)
  flat : Token.opening ∉ group.inside ∧ Token.closing ∉ group.inside
  /-- Nothing changes but that the number takes the group's place. -/
  result : ∀ value, group.replaceBy value =
    current.take group.openingIndex ++ .number value :: current.drop (group.closingIndex + 1)

namespace Group

theorem order (group : Group) :
    group.openingIndex < group.closingIndex ∧ group.closingIndex < group.tokens.length := by
  simp only [openingIndex, closingIndex, tokens, List.length_append, List.length_cons]
  omega

theorem take_openingIndex (group : Group) : group.tokens.take group.openingIndex = group.before :=
  List.take_left

theorem take_openingIndex_succ (group : Group) :
    group.tokens.take (group.openingIndex + 1) = group.before ++ [Token.opening] := by
  simp [tokens, openingIndex, List.take_append]

theorem take_closingIndex (group : Group) :
    group.tokens.take group.closingIndex = group.before ++ .opening :: group.inside := by
  simp [tokens, closingIndex, List.take_append, Nat.add_assoc, Nat.add_comm 1]

theorem drop_closingIndex (group : Group) :
    group.tokens.drop group.closingIndex = .closing :: group.behind := by
  simp [tokens, closingIndex, List.drop_append, Nat.add_assoc, Nat.add_comm 1]

theorem inPlace {first current : List Token} {rounds : List Round} {group : Group}
    (h : Rounds first rounds current) (hlast : last? current = .ok (some group)) :
    group.InPlace first current := by
  obtain ⟨hgroup, rfl⟩ := last?_eq_some_iff.1 hlast
  have hfront : group.before ++ [Token.opening] <+: first :=
    h.prefix_of_prefix (group.take_openingIndex_succ ▸ List.take_prefix ..)
  have hlength : (group.before ++ [Token.opening]).length = group.openingIndex + 1 :=
    List.length_append
  exact {
    opening := by simp [tokens, openingIndex]
    closing := by rw [← List.head?_drop, drop_closingIndex, List.head?_cons]
    order := group.order
    before := by
      rw [take_openingIndex_succ, ← hlength]
      exact List.prefix_iff_eq_take.1 hfront
    inside := by
      rw [take_closingIndex, openingIndex, ← List.drop_drop, List.drop_left]
      rfl
    flat := ⟨hgroup.opening_inside, hgroup.closing_inside⟩
    result := by
      intro value
      rw [take_openingIndex, ← List.drop_drop, drop_closingIndex]
      rfl }

end Group

/-! ## The indexes in the journal -/

theorem filterMap_openingIndex?_filter (events : List Event) :
    (events.filter Event.isGroup).filterMap Event.openingIndex? =
      events.filterMap Event.openingIndex? := by
  rw [List.filterMap_filter]
  congr 1
  funext event
  cases event <;> rfl

/-- **Groups in their places.** In every round, the parenthesis that opens the group and all that is in
front of it are where they were at first. So the journal shows the opening parentheses at their first
indexes, from the last one on. It shows all of them just if there is a result or only closing
parentheses are left over. -/
theorem collapseGroups_inPlace (tokens : List Token) :
    (∀ rounds current, Rounds tokens rounds current →
      (∀ front : List Token, front ++ [Token.opening] <+: current → front ++ [Token.opening] <+: tokens) ∧
      ∀ group, Group.last? current = .ok (some group) → group.InPlace tokens current) ∧
    (∃ rounds current ending, Rounds tokens rounds current ∧ Ends current ending ∧
      collapseGroups tokens = ⟨rounds.flatMap Round.events ++ ending.events, ending.outcome⟩ ∧
      (collapseGroups tokens).events.filter Event.isGroup = rounds.map Round.record ∧
      ∀ earlier round later, rounds = earlier ++ round :: later →
        Rounds tokens earlier round.group.tokens ∧
        round.group.openingIndex < round.group.closingIndex ∧
        round.group.closingIndex < round.group.tokens.length) ∧
    ((collapseGroups tokens).events.filterMap Event.openingIndex?).Pairwise (· > ·) ∧
    (collapseGroups tokens).events.filterMap Event.openingIndex? <+:
      (openingIndexes tokens).reverse ∧
    ((collapseGroups tokens).events.filterMap Event.openingIndex? = (openingIndexes tokens).reverse ↔
      (∃ flat, (collapseGroups tokens).outcome = .ok flat) ∨
        (collapseGroups tokens).outcome = .error (.unmatched ')')) := by
  obtain ⟨rounds, current, ending, hrounds, hends, hcollapse⟩ := exists_rounds tokens
  have hrecords : (collapseGroups tokens).events.filter Event.isGroup = rounds.map Round.record := by
    rw [hcollapse, List.filter_append, filter_isGroup_flatMap_events, hends.filter_isGroup,
      List.append_nil]
  have hindexes : (collapseGroups tokens).events.filterMap Event.openingIndex? =
      rounds.map fun round => round.group.openingIndex := by
    rw [← filterMap_openingIndex?_filter, hrecords, List.filterMap_map]
    show rounds.filterMap (fun round => some round.group.openingIndex) = _
    rw [List.filterMap_eq_map']
  have hopening := hrounds.openingIndexes_eq
  rw [hindexes, hopening]
  refine ⟨fun rounds' current' h => ⟨fun front => h.prefix_of_prefix, fun group => Group.inPlace h⟩,
    ⟨rounds, current, ending, hrounds, hends, hcollapse, hrecords, ?rounds⟩, ?decreasing,
    List.prefix_append .., ?all⟩
  case rounds =>
    rintro earlier round later rfl
    exact ⟨hrounds.of_append, round.group.order⟩
  case decreasing =>
    have hall : (openingIndexes tokens).reverse.Pairwise (· > ·) :=
      List.pairwise_reverse.2 List.pairwise_findIdxs
    rw [hopening] at hall
    exact (List.pairwise_append.1 hall).1
  case all =>
    rw [hcollapse, ← hends.opening_not_mem_iff, ← openingIndexes_eq_nil_iff]
    simp

/-- In `((1)+(2)` the second round finds its group in fewer tokens, at the index it had at first. -/
theorem collapseGroups_inPlace_second_round :
    Rounds [.opening, .opening, .number 1, .closing, .operator .add, .opening, .number 2, .closing]
        [⟨⟨[.opening, .opening, .number 1, .closing, .operator .add], [.number 2], []⟩, 2⟩]
        [.opening, .opening, .number 1, .closing, .operator .add, .number 2] ∧
      Group.last? [.opening, .opening, .number 1, .closing, .operator .add, .number 2] =
        .ok (some ⟨[.opening], [.number 1], [.operator .add, .number 2]⟩) ∧
      Group.InPlace ⟨[.opening], [.number 1], [.operator .add, .number 2]⟩
        [.opening, .opening, .number 1, .closing, .operator .add, .opening, .number 2, .closing]
        [.opening, .opening, .number 1, .closing, .operator .add, .number 2] := by
  have hvalue : groupValue [.number 2] = .ok 2 := by decide +kernel
  have hround : Rounds
      [.opening, .opening, .number 1, .closing, .operator .add, .opening, .number 2, .closing]
      [⟨⟨[.opening, .opening, .number 1, .closing, .operator .add], [.number 2], []⟩, 2⟩]
      [.opening, .opening, .number 1, .closing, .operator .add, .number 2] :=
    .cons rfl hvalue (.nil _)
  have hlast : Group.last? [.opening, .opening, .number 1, .closing, .operator .add, .number 2] =
      .ok (some ⟨[.opening], [.number 1], [.operator .add, .number 2]⟩) := rfl
  exact ⟨hround, hlast, ((collapseGroups_inPlace _).1 _ _ hround).2 _ hlast⟩

end Calculator
