import Calculator.Token
import Calculator.Error

/-!
# Groups

The group that is worked out next is the right-most one: from the last opening parenthesis to the
first closing one after it, so with no parenthesis in between.
-/

namespace Calculator

/-- A group and the tokens around it. -/
structure Group where
  before : List Token
  inside : List Token
  behind : List Token
deriving DecidableEq

namespace Group

/-- The tokens that the group was found in. -/
def tokens (group : Group) : List Token :=
  group.before ++ .opening :: (group.inside ++ .closing :: group.behind)

def openingIndex (group : Group) : Nat := group.before.length

def closingIndex (group : Group) : Nat := group.before.length + 1 + group.inside.length

/-- The tokens with a number in place of the group. -/
def replaceBy (group : Group) (value : Number) : List Token :=
  group.before ++ .number value :: group.behind

def splitAtLastOpening? : List Token → Option (List Token × List Token)
  | [] => none
  | token :: rest =>
    match splitAtLastOpening? rest with
    | some (before, after) => some (token :: before, after)
    | none => if token.isOpening then some ([], rest) else none

def splitAtFirstClosing? : List Token → Option (List Token × List Token)
  | [] => none
  | token :: rest =>
    if token.isClosing then some ([], rest)
    else (splitAtFirstClosing? rest).map fun (inside, behind) => (token :: inside, behind)

/-- The right-most group, if the tokens hold any parentheses. An opening parenthesis without partner
is noticed as soon as it is the last one, a closing one only when no opening ones are left. -/
def last? (tokens : List Token) : Except Error (Option Group) :=
  match splitAtLastOpening? tokens with
  | some (before, after) =>
    match splitAtFirstClosing? after with
    | some (inside, behind) => .ok (some ⟨before, inside, behind⟩)
    | none => .error (.unmatched '(')
  | none => if tokens.any Token.isClosing then .error (.unmatched ')') else .ok none

/-! ## Laws -/

theorem eq_of_splitAtLastOpening? {tokens before after : List Token}
    (h : splitAtLastOpening? tokens = some (before, after)) :
    tokens = before ++ .opening :: after := by
  induction tokens generalizing before after with
  | nil => simp [splitAtLastOpening?] at h
  | cons token rest ih =>
    unfold splitAtLastOpening? at h
    split at h
    · rename_i hsplit
      cases h
      simp [ih hsplit]
    · split at h
      · rename_i hopening
        cases h
        cases token <;> simp_all [Token.isOpening]
      · cases h

theorem eq_of_splitAtFirstClosing? {tokens inside behind : List Token}
    (h : splitAtFirstClosing? tokens = some (inside, behind)) :
    tokens = inside ++ .closing :: behind := by
  induction tokens generalizing inside behind with
  | nil => simp [splitAtFirstClosing?] at h
  | cons token rest ih =>
    unfold splitAtFirstClosing? at h
    split at h
    · rename_i hclosing
      cases h
      cases token <;> simp_all [Token.isClosing]
    · obtain ⟨⟨inside', behind'⟩, hsplit, heq⟩ := Option.map_eq_some_iff.1 h
      cases heq
      simp [ih hsplit]

theorem tokens_of_last? {tokens : List Token} {group : Group} (h : last? tokens = .ok (some group)) :
    group.tokens = tokens := by
  unfold last? at h
  split at h
  · rename_i before after hopening
    split at h
    · rename_i inside behind hclosing
      cases h
      rw [eq_of_splitAtLastOpening? hopening, eq_of_splitAtFirstClosing? hclosing]
      rfl
    · cases h
  · split at h <;> cases h

theorem length_replaceBy_lt (group : Group) (value : Number) :
    (group.replaceBy value).length < group.tokens.length := by
  simp only [replaceBy, tokens, List.length_append, List.length_cons]
  omega

end Group

end Calculator
