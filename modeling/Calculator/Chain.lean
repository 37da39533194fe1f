import Calculator.Token

/-!
# Chains

A chain is an expression without parentheses: a number, then any number of operators, each with a
number. `ofTokens_eq`: reading the tokens two by two, after a look at their length and the last of
them, comes to the same as reading them link by link. `ofTokens?_eq_some_iff`: the tokens that are
read as a chain are those it is written with.
-/

namespace Calculator

structure Chain where
  first : Number
  links : List (Operator × Number)
deriving DecidableEq

namespace Chain

def linkTokens (link : Operator × Number) : List Token := [.operator link.1, .number link.2]

def toTokens (chain : Chain) : List Token :=
  .number chain.first :: chain.links.flatMap linkTokens

/-- One chain behind the other, with an operator in between. -/
def append (chain : Chain) (op : Operator) (other : Chain) : Chain :=
  ⟨chain.first, chain.links ++ (op, other.first) :: other.links⟩

theorem toTokens_append_operator (chain other : Chain) (op : Operator) :
    chain.toTokens ++ .operator op :: other.toTokens = (chain.append op other).toTokens := by
  simp [append, toTokens, linkTokens]

/-- Each item with the one after it, two by two. A last item that is left alone is dropped. -/
def pairs {α : Type} : List α → List (α × α)
  | first :: second :: rest => (first, second) :: pairs rest
  | _ => []

def linkOfTokens (pair : Token × Token) : Except Error (Operator × Number) :=
  match pair.1.operator?, pair.2 with
  | some op, .number value => .ok (op, value)
  | _, _ => .error .malformed

/-- The chain that the tokens are written as. Behind the first number they are taken in pairs, so
their length and the last of them are looked at before. -/
def ofTokens (tokens : List Token) : Except Error Chain :=
  if tokens.isEmpty || tokens.length % 2 == 0 || !tokens.getLast?.any Token.isNumber then
    .error .malformed
  else
    match tokens with
    | .number first :: rest => do
      let links ← (pairs rest).mapM linkOfTokens
      return ⟨first, links⟩
    | _ => .error .malformed

/-! ## Reading link by link

Proofs open `ofTokens?`, which takes a link at a time, and not `ofTokens`. -/

def linksOfTokens? : List Token → Option (List (Operator × Number))
  | [] => some []
  | .operator op :: .number value :: rest => (linksOfTokens? rest).map ((op, value) :: ·)
  | _ => none

def ofTokens? : List Token → Option Chain
  | .number first :: rest => (linksOfTokens? rest).map (⟨first, ·⟩)
  | _ => none

/-! ## Reading and writing -/

theorem linksOfTokens?_append (links : List (Operator × Number)) (rest : List Token) :
    linksOfTokens? (links.flatMap linkTokens ++ rest) = (linksOfTokens? rest).map (links ++ ·) := by
  induction links with
  | nil => simp
  | cons link links ih =>
    simp only [List.flatMap_cons, linkTokens, List.cons_append, List.nil_append, linksOfTokens?, ih,
      Option.map_map]
    rfl

theorem linksOfTokens?_flatMap (links : List (Operator × Number)) :
    linksOfTokens? (links.flatMap linkTokens) = some links := by
  have h := linksOfTokens?_append links []
  rwa [List.append_nil, linksOfTokens?, Option.map_some, List.append_nil] at h

theorem eq_flatMap_of_linksOfTokens? {tokens : List Token} {links : List (Operator × Number)}
    (h : linksOfTokens? tokens = some links) : tokens = links.flatMap linkTokens := by
  fun_induction linksOfTokens? tokens generalizing links with
  | case1 => cases h; rfl
  | case2 op value rest ih =>
    obtain ⟨others, hothers, rfl⟩ := Option.map_eq_some_iff.1 h
    simp [List.flatMap_cons, linkTokens, ih hothers]
  | case3 => cases h

theorem ofTokens?_eq_some_iff {tokens : List Token} {chain : Chain} :
    ofTokens? tokens = some chain ↔ tokens = chain.toTokens := by
  constructor
  · intro h
    unfold ofTokens? at h
    split at h
    · obtain ⟨links, hlinks, rfl⟩ := Option.map_eq_some_iff.1 h
      rw [eq_flatMap_of_linksOfTokens? hlinks]
      rfl
    · cases h
  · rintro rfl
    simp [ofTokens?, toTokens, linksOfTokens?_flatMap]

theorem length_flatMap_linkTokens (links : List (Operator × Number)) :
    (links.flatMap linkTokens).length = 2 * links.length := by
  induction links with
  | nil => rfl
  | cons link links ih =>
    simp only [List.flatMap_cons, linkTokens, List.length_append, List.length_cons, ih]
    simp only [List.length_nil]
    omega

theorem length_toTokens (chain : Chain) : chain.toTokens.length = 2 * chain.links.length + 1 := by
  rw [toTokens, List.length_cons, length_flatMap_linkTokens]

theorem isNumber_getLast?_toTokens (chain : Chain) :
    chain.toTokens.getLast?.any Token.isNumber = true := by
  obtain ⟨first, links⟩ := chain
  induction links generalizing first with
  | nil => rfl
  | cons link links ih => exact ih link.2

/-! ## Reading in pairs -/

/-- Tokens of even length are pairs throughout, so reading the pairs misses none of them. -/
theorem mapM_linkOfTokens {tokens : List Token} (h : tokens.length % 2 = 0) :
    (pairs tokens).mapM linkOfTokens = (linksOfTokens? tokens).elim (.error .malformed) .ok := by
  fun_induction linksOfTokens? tokens with
  | case1 => rfl
  | case2 op value rest ih =>
    have hrest : rest.length % 2 = 0 := by
      simp only [List.length_cons] at h
      omega
    rw [pairs, List.mapM_cons, ih hrest]
    cases linksOfTokens? rest <;> rfl
  | case3 tokens hnil hlink =>
    match tokens, hnil, hlink, h with
    | [_], _, _, h => cases h
    | first :: second :: rest, _, hlink, _ =>
      have hpair : linkOfTokens (first, second) = .error .malformed := by
        cases first <;> cases second <;> first | rfl | exact absurd rfl (hlink _ _ _)
      rw [pairs, List.mapM_cons, hpair]
      rfl

theorem ofTokens_toTokens (chain : Chain) : ofTokens chain.toTokens = .ok chain := by
  have hodd : (chain.toTokens.length % 2 == 0) = false := by
    rw [length_toTokens, beq_eq_false_iff_ne]
    omega
  have heven : (chain.links.flatMap linkTokens).length % 2 = 0 := by
    rw [length_flatMap_linkTokens]
    omega
  have hnonempty : chain.toTokens.isEmpty = false := rfl
  unfold ofTokens
  rw [hnonempty, hodd, isNumber_getLast?_toTokens, toTokens]
  simp only [Bool.or_false, Bool.not_true, Bool.false_eq_true, if_false]
  rw [mapM_linkOfTokens heven, linksOfTokens?_flatMap]
  rfl

theorem ofTokens_of_none {tokens : List Token} (h : ofTokens? tokens = none) :
    ofTokens tokens = .error .malformed := by
  unfold ofTokens
  split
  · rfl
  · rename_i hguard
    simp only [Bool.or_eq_true, not_or, beq_iff_eq] at hguard
    obtain ⟨⟨-, hodd⟩, -⟩ := hguard
    cases tokens with
    | nil => rfl
    | cons token rest =>
      cases token with
      | number first =>
        have heven : rest.length % 2 = 0 := by
          rw [List.length_cons] at hodd
          omega
        simp only [mapM_linkOfTokens heven, Option.map_eq_none_iff.1 h]
        rfl
      | operator op => rfl
      | opening => rfl
      | closing => rfl

theorem ofTokens_eq (tokens : List Token) :
    ofTokens tokens = (ofTokens? tokens).elim (.error .malformed) .ok := by
  cases h : ofTokens? tokens with
  | none => exact ofTokens_of_none h
  | some chain =>
    rw [ofTokens?_eq_some_iff.1 h]
    exact chain.ofTokens_toTokens

end Chain

end Calculator
