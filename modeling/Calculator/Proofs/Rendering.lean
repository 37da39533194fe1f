import Mathlib.Data.List.Chain
import Calculator.Proofs.Grammar
import Calculator.Proofs.WrittenNumber
import Calculator.Signs

/-!
# Rendering

The text of some tokens is read as those tokens after their signs are joined to their numbers
(`tokenize_text`), unless two of them run together in it.
-/

namespace Calculator

/-- Whether a token can still be told apart when it is written right after another. Two numbers run
together, and after a closing parenthesis a hyphen is an operator. -/
def Token.Apart : Token → Token → Prop
  | number _, number _ => False
  | closing, number value => value.isNegative = false
  | _, _ => True

/-! ## What follows a token -/

/-- Only a number without sign bit is written with a digit or a point first. -/
theorem exists_number_of_isNumeric {tokens : List Token}
    (hfinite : ∀ value, Token.number value ∈ tokens → value.isFinite = true) {c : Char}
    (h : (tokens.flatMap Token.spell).head? = some c) (hc : isNumeric c = true) :
    ∃ value rest, tokens = .number value :: rest ∧ value.isNegative = false := by
  cases tokens with
  | nil => cases h
  | cons token rest =>
    cases token with
    | number value =>
      refine ⟨value, rest, rfl, Bool.eq_false_iff.2 fun hneg => ?_⟩
      rw [List.flatMap_cons, Number.spell_number (hfinite value (List.mem_cons_self ..)), hneg] at h
      cases h
      cases hc
    | operator op => cases op <;> cases h <;> cases hc
    | opening => cases h; cases hc
    | closing => cases h; cases hc

theorem head?_of_apart_number {x : Number} {tokens : List Token}
    (hfinite : ∀ value, Token.number value ∈ tokens → value.isFinite = true)
    (hapart : (Token.number x :: tokens).IsChain Token.Apart) (c : Char)
    (h : (tokens.flatMap Token.spell).head? = some c) : isNumeric c = false := by
  refine Bool.eq_false_iff.2 fun hc => ?_
  obtain ⟨value, rest, rfl, -⟩ := exists_number_of_isNumeric hfinite h hc
  exact (List.isChain_cons_cons.1 hapart).1

theorem isChain_number_cons {x y : Number} {tokens : List Token}
    (h : (Token.number x :: tokens).IsChain Token.Apart) :
    (Token.number y :: tokens).IsChain Token.Apart := by
  cases tokens with
  | nil => simp
  | cons token rest =>
    rw [List.isChain_cons_cons] at h ⊢
    exact ⟨by cases token <;> exact h.1, h.2⟩

/-! ## Reading the text of tokens -/

theorem reads_literal {previous : Option Token} {sign? : Option Sign} {x value : Number}
    {rest : List Char} {tokens : List Token}
    (hvalue : (sign?.getD .plus).apply (Number.ofNumeral x.numeral) = value)
    (hsign : sign? ≠ none → Token.signMayFollow previous = true)
    (hend : ∀ c, rest.head? = some c → isNumeric c = false)
    (hrest : Reads (some (.number value)) rest tokens) :
    Reads previous ((sign?.map Sign.symbol).toList ++ x.numeral ++ rest)
      (.number value :: tokens) := by
  subst hvalue
  have hnumeral := Number.isNumeral_numeral x
  refine Reads.cons_lexeme (.literal hnumeral hend fun hne => ?_) hrest
  obtain ⟨c, run, hrun, hc⟩ := hnumeral.exists_cons
  exact ⟨signMayFollow_iff.1 (hsign hne), c, by rw [hrun]; rfl, hc⟩

theorem reads_number {previous : Option Token} {x : Number} {rest : List Char} {tokens : List Token}
    (hx : x.isFinite = true) (hsign : x.isNegative = true → Token.signMayFollow previous = true)
    (hend : ∀ c, rest.head? = some c → isNumeric c = false)
    (hrest : Reads (some (.number x)) rest tokens) :
    Reads previous (Token.spell (.number x) ++ rest) (.number x :: tokens) := by
  have hvalue := Number.apply_sign_ofNumeral hx
  rw [Number.spell_number hx]
  cases hneg : x.isNegative with
  | false =>
    simp only [Number.sign, hneg] at hvalue
    exact @reads_literal previous none x x _ _ hvalue (fun hne => absurd rfl hne) hend hrest
  | true =>
    simp only [Number.sign, hneg] at hvalue
    exact @reads_literal previous (some .minus) x x _ _ hvalue (fun _ => hsign hneg) hend hrest

theorem reads_signed_number {previous : Option Token} {op : Operator} {sign : Sign} {x : Number}
    {rest : List Char} {tokens : List Token} (hop : op.sign? = some sign)
    (hfollow : Token.signMayFollow previous = true) (hx : x.isFinite = true)
    (hneg : x.isNegative = false) (hend : ∀ c, rest.head? = some c → isNumeric c = false)
    (hrest : Reads (some (.number (sign.apply x))) rest tokens) :
    Reads previous (Token.spell (.operator op) ++ (Token.spell (.number x) ++ rest))
      (.number (sign.apply x) :: tokens) := by
  have hvalue := Number.apply_sign_ofNumeral hx
  have hsymbol : op.symbol = sign.symbol := congrArg Operator.symbol (Sign.operator_of_sign? hop).symm
  simp only [Number.sign, hneg] at hvalue
  rw [Number.spell_number hx, hneg]
  have happly : sign.apply (Number.ofNumeral x.numeral) = sign.apply x := congrArg sign.apply hvalue
  have h := @reads_literal previous (some sign) x _ _ _ happly (fun _ => hfollow) hend hrest
  simpa [Token.spell, hsymbol] using h

theorem reads_operator {previous : Option Token} {op : Operator} {rest : List Char}
    {tokens : List Token} (hsign : op.sign? ≠ none → ¬ SignsLiteral previous rest)
    (hrest : Reads (some (.operator op)) rest tokens) :
    Reads previous (Token.spell (.operator op) ++ rest) (.operator op :: tokens) := by
  have hlexeme : Lexeme.Denotes previous rest (.symbol op.symbol) (.operator op) := by
    refine .symbol (.of_operator op) fun hpm => hsign ?_
    cases op <;> simp [Operator.sign?, Operator.symbol] at hpm ⊢
  exact Reads.cons_lexeme hlexeme hrest

theorem reads_parenthesis {previous : Option Token} {token : Token} {rest : List Char}
    {tokens : List Token} (htoken : token = .opening ∨ token = .closing)
    (hrest : Reads (some token) rest tokens) :
    Reads previous (Token.spell token ++ rest) (token :: tokens) := by
  rcases htoken with rfl | rfl
  · exact Reads.cons_lexeme (.symbol .opening (by simp)) hrest
  · exact Reads.cons_lexeme (.symbol .closing (by simp)) hrest

theorem reads_flatMap_spell {previous : Option Token} {tokens : List Token}
    (hfinite : ∀ value, Token.number value ∈ tokens → value.isFinite = true)
    (hapart : (previous.toList ++ tokens).IsChain Token.Apart) :
    Reads previous (tokens.flatMap Token.spell) (absorbSignsAfter previous tokens) := by
  fun_induction absorbSignsAfter previous tokens with
  | case1 previous op value rest sign hsign signed ih =>
    have hchain := hapart.right_of_append.of_cons
    have hrest : ∀ x, Token.number x ∈ rest → x.isFinite = true :=
      fun x hm => hfinite x (by simp [hm])
    split at hsign
    · rename_i hcond
      simp only [Bool.and_eq_true, Bool.not_eq_true'] at hcond
      exact reads_signed_number hsign hcond.1 (hfinite value (by simp)) hcond.2
        (head?_of_apart_number hrest hchain) (ih hrest (isChain_number_cons hchain))
    · cases hsign
  | case2 previous op value rest hnone ih =>
    have hchain := hapart.right_of_append
    have hrest : ∀ x, Token.number x ∈ Token.number value :: rest → x.isFinite = true :=
      fun x hm => hfinite x (List.mem_cons_of_mem _ hm)
    refine reads_operator (fun hsign hliteral => ?_) (ih hrest hchain)
    obtain ⟨hfollow, c, hc, hnumeric⟩ := hliteral
    obtain ⟨x, tail, heq, hneg⟩ := exists_number_of_isNumeric hrest hc hnumeric
    cases heq
    rw [signMayFollow_iff.2 hfollow, hneg] at hnone
    exact hsign hnone
  | case3 previous token rest hpair ih =>
    have hchain := hapart.right_of_append
    have hrest : ∀ x, Token.number x ∈ rest → x.isFinite = true :=
      fun x hm => hfinite x (List.mem_cons_of_mem _ hm)
    have htail := ih hrest hchain
    cases token with
    | number x =>
      refine reads_number (hfinite x (List.mem_cons_self ..)) (fun hneg => ?_)
        (head?_of_apart_number hrest hchain) htail
      -- a hyphen behind a number or a closing parenthesis would be read as an operator
      cases previous with
      | none => rfl
      | some before =>
        have hbefore := (List.isChain_cons_cons.1 hapart).1
        cases before with
        | number y => exact absurd hbefore id
        | closing => rw [Token.Apart, hneg] at hbefore; cases hbefore
        | operator op => rfl
        | opening => rfl
    | operator op =>
      refine reads_operator (fun _ hliteral => ?_) htail
      obtain ⟨-, c, hc, hnumeric⟩ := hliteral
      obtain ⟨x, tail, rfl, -⟩ := exists_number_of_isNumeric hrest hc hnumeric
      exact hpair op x tail rfl rfl
    | opening => exact reads_parenthesis (Or.inl rfl) htail
    | closing => exact reads_parenthesis (Or.inr rfl) htail
  | case4 previous => exact .blanks (by simp)

/-- **Rendering.** The text of finite numbers and symbols, none of which runs together with the one
before it, is read as the tokens with their signs joined to their numbers. -/
theorem tokenize_text {tokens : List Token}
    (hfinite : ∀ value, Token.number value ∈ tokens → value.isFinite = true)
    (hapart : tokens.IsChain Token.Apart) :
    tokenize (Token.text tokens) = .ok (absorbSigns tokens) ∧
      (absorbSigns tokens = tokens → tokenize (Token.text tokens) = .ok tokens) := by
  have hreads : Reads none (Token.text tokens).toList (absorbSigns tokens) := by
    rw [Token.text, String.toList_ofList]
    exact @reads_flatMap_spell none tokens hfinite hapart
  have htokens := tokenize_of_reads hreads
  exact ⟨htokens, fun hfolded => by rw [htokens, hfolded]⟩

/-- `-1*--0`: the first sign is joined to its number, the last is the sign bit of its number, and the
one between them stays an operator. -/
theorem tokenize_text_mixed_signs :
    (∀ value, Token.number value ∈ [.operator .sub, .number 1, .operator .mul, .operator .sub,
        .number (-0.0)] → value.isFinite = true) ∧
      [.operator .sub, .number 1, .operator .mul, .operator .sub, .number (-0.0)].IsChain
        Token.Apart ∧
      tokenize (Token.text [.operator .sub, .number 1, .operator .mul, .operator .sub,
        .number (-0.0)]) = .ok [.number (-1), .operator .mul, .operator .sub, .number (-0.0)] := by
  have hfinite : ∀ value, Token.number value ∈ [.operator .sub, .number 1, .operator .mul,
      .operator .sub, .number (-0.0)] → value.isFinite = true := by
    simp only [List.mem_cons, Token.number.injEq, reduceCtorEq, List.not_mem_nil, false_or, or_false]
    rintro value (rfl | rfl) <;> decide +kernel
  have hapart : [.operator .sub, .number 1, .operator .mul, .operator .sub,
      .number (-0.0)].IsChain Token.Apart := by simp [Token.Apart]
  have hsigns : absorbSigns [.operator .sub, .number 1, .operator .mul, .operator .sub,
      .number (-0.0)] = [.number (-1), .operator .mul, .operator .sub, .number (-0.0)] := by
    decide +kernel
  refine ⟨hfinite, hapart, ?_⟩
  rw [← hsigns]
  exact (tokenize_text hfinite hapart).1

end Calculator
