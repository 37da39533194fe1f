import Mathlib.Data.List.TakeWhile
import Calculator.Number.Bits
import Calculator.Proofs.Offence
import Calculator.Proofs.TextParts

/-!
# Texts side by side

Of a text with a space behind it, only the last token matters for what comes next.
`tokenize_append_space`: a second text has the tokens it has alone, unless it begins with a signed
number and no sign may stand there. Then the sign is an operator, and the other tokens are the same.
-/

namespace Calculator

/-- The first character that is no blank is the sign, and a digit or point is right behind it. -/
def BeginsSigned (sign : Sign) (text : List Char) : Prop :=
  ∃ c rest, text.dropWhile isBlank = sign.symbol :: c :: rest ∧ isNumeric c = true

/-- The last token is a number or the end of a group. -/
def EndsInOperand (tokens : List Token) : Prop :=
  (∃ value, tokens.getLast? = some (.number value)) ∨ tokens.getLast? = some .closing

theorem endsInOperand_iff {tokens : List Token} :
    EndsInOperand tokens ↔ Token.signMayFollow tokens.getLast? = false := by
  unfold EndsInOperand
  cases tokens.getLast? with
  | none => simp [Token.signMayFollow]
  | some token => cases token <;> simp [Token.signMayFollow, Token.admitsSign]

/-! ## Signs of numerals -/

namespace Number

theorem isNegative_ofNumeral (numeral : List Char) : (ofNumeral numeral).isNegative = false :=
  isNegative_ofParts false (lt_signWeight_of_le_infinity (Decimal.magnitude_le_infinity _))

end Number

/-- A sign is taken off a number the way it is put on. -/
theorem Sign.apply_apply (sign : Sign) (x : Number) : sign.apply (sign.apply x) = x := by
  cases sign with
  | plus => rfl
  | minus => exact x.negate_negate

/-! ## The first lexeme after another token -/

theorem Lexeme.Denotes.dropWhile_isBlank {previous : Option Token} {rest : List Char}
    {lexeme : Lexeme} {token : Token} (h : lexeme.Denotes previous rest token) {blanks : List Char}
    (hb : ∀ c ∈ blanks, isBlank c = true) :
    (blanks ++ (lexeme.chars ++ rest)).dropWhile isBlank = lexeme.chars ++ rest := by
  obtain ⟨c, chars, hchars, hc, -⟩ := Lexeme.split_of_denotes h
  rw [List.dropWhile_append_of_pos hb, hchars, List.cons_append, List.dropWhile_cons_of_neg]
  simp [hc]

theorem Reads.of_not_beginsSigned {text : List Char} {tokens : List Token}
    (h : Reads none text tokens) (hsigned : ∀ sign, ¬ BeginsSigned sign text)
    (previous : Option Token) : Reads previous text tokens := by
  cases h with
  | blanks hb => exact .blanks hb
  | token hb hlexeme hrest =>
    refine .token hb ?_ hrest
    have htext := hlexeme.dropWhile_isBlank hb
    cases hlexeme with
    | symbol hsymbol hsign =>
      exact .symbol hsymbol fun hpm hliteral => hsign hpm ⟨Or.inl rfl, hliteral.2⟩
    | @literal sign? run hrun hend hsign =>
      cases sign? with
      | none => exact .literal hrun hend fun hne => absurd rfl hne
      | some sign =>
        obtain ⟨c, digits, rfl, hc⟩ := hrun.exists_cons
        exact absurd ⟨c, _, htext, hc⟩ (hsigned sign)

/-- What a number is does not matter for the text behind it. -/
theorem Reads.congr_number {x : Number} {text : List Char} {tokens : List Token}
    (h : Reads (some (.number x)) text tokens) (y : Number) : Reads (some (.number y)) text tokens :=
  h.congr rfl

/-- Where no sign may stand, the sign and its number are two tokens. -/
theorem Reads.of_beginsSigned {text : List Char} {tokens : List Token} (h : Reads none text tokens)
    {sign : Sign} (hsigned : BeginsSigned sign text) {previous : Option Token}
    (hprevious : Token.signMayFollow previous = false) :
    ∃ value rest, tokens = .number value :: rest ∧ (sign.apply value).isNegative = false ∧
      Reads previous text (.operator sign.operator :: .number (sign.apply value) :: rest) := by
  obtain ⟨c, behind, htext, hc⟩ := hsigned
  cases h with
  | blanks hb =>
    rw [List.dropWhile_eq_nil_iff.2 hb] at htext
    cases htext
  | @token previous' blanks rest lexeme token tokens hb hlexeme hrest =>
    rw [hlexeme.dropWhile_isBlank hb] at htext
    cases hlexeme with
    | @symbol d token hsymbol hsign =>
      cases htext
      exact absurd ⟨Or.inl rfl, c, rfl, hc⟩ (hsign sign.symbol_eq)
    | @literal sign? run hrun hend hsign =>
      cases sign? with
      | none =>
        obtain ⟨d, digits, rfl, hd⟩ := hrun.exists_cons
        have hfirst : d = sign.symbol := (List.cons.inj htext).1
        rw [hfirst, isNumeric_symbol] at hd
        cases hd
      | some sign' =>
        rw [Lexeme.chars, Option.map_some, Option.toList_some, List.append_assoc,
          List.singleton_append, List.cons.injEq] at htext
        obtain rfl := Sign.symbol_injective htext.1
        refine ⟨_, tokens, rfl, ?_⟩
        rw [Option.getD_some, sign'.apply_apply]
        refine ⟨Number.isNegative_ofNumeral run, ?_⟩
        have hoperator : (Lexeme.symbol sign'.symbol).Denotes previous (run ++ rest)
            (.operator sign'.operator) := by
          refine .symbol (.of_operator sign'.operator) fun _ hliteral => ?_
          rw [signsLiteral_iff, hprevious] at hliteral
          cases hliteral
        have hnumber : (Lexeme.literal none run).Denotes (some (.operator sign'.operator)) rest
            (.number (Number.ofNumeral run)) :=
          .literal hrun hend fun hne => absurd rfl hne
        have hbehind : Reads (some (.operator sign'.operator)) (run ++ rest)
            (.number (Number.ofNumeral run) :: tokens) :=
          Reads.cons_lexeme hnumber (hrest.congr_number _)
        exact (Reads.token hb hoperator hbehind :)

/-! ## Two texts -/

theorem toList_append_space (s t : String) :
    (s ++ " " ++ t).toList = s.toList ++ ' ' :: t.toList := by
  simp [String.toList_append]

theorem tokenize_append_space_of_reads {s t : String} {tokens others : List Token}
    (hs : tokenize s = .ok tokens) (ht : Reads tokens.getLast? t.toList others) :
    tokenize (s ++ " " ++ t) = .ok (tokens ++ others) := by
  apply tokenize_of_reads
  rw [toList_append_space]
  exact (reads_of_tokenize hs).append (ht.cons_blank rfl) (parted_cons _ rfl _)

/-- **Texts side by side.** An error in the first text is the error of both. If each text has tokens,
both together have the ones and then the others. Only if the first ends in an operand and the second
begins with a signed number, the sign is taken off the number and is an operator. -/
theorem tokenize_append_space (s t : String) :
    (∀ error, tokenize s = .error error → tokenize (s ++ " " ++ t) = .error error) ∧
    ∀ tokens others, tokenize s = .ok tokens → tokenize t = .ok others →
      (¬ (EndsInOperand tokens ∧ ∃ sign, BeginsSigned sign t.toList) →
        tokenize (s ++ " " ++ t) = .ok (tokens ++ others)) ∧
      ∀ sign, EndsInOperand tokens → BeginsSigned sign t.toList →
        ∃ value rest, others = .number value :: rest ∧ (sign.apply value).isNegative = false ∧
          tokenize (s ++ " " ++ t) =
            .ok (tokens ++ [.operator sign.operator, .number (sign.apply value)] ++ rest) := by
  refine ⟨?error, fun tokens others hs ht => ⟨?alike, ?apart⟩⟩
  case error =>
    intro error hs
    have hfailure := tokenize_eq_error_iff_failure.1 hs
    rw [tokenize_eq_error_iff_failure, toList_append_space,
      Scan.after_append _ _ (parted_cons _ rfl _), Scan.andThen_of_failure hfailure, hfailure]
  case alike =>
    intro hseam
    apply tokenize_append_space_of_reads hs
    have hreads := reads_of_tokenize ht
    by_cases hend : EndsInOperand tokens
    · exact hreads.of_not_beginsSigned (fun sign hsigned => hseam ⟨hend, sign, hsigned⟩) _
    · -- a sign may follow the last token, as at the start of a text
      rw [endsInOperand_iff, Bool.not_eq_false] at hend
      exact hreads.congr hend.symm
  case apart =>
    intro sign hend hsigned
    obtain ⟨value, rest, hothers, hvalue, hreads⟩ :=
      (reads_of_tokenize ht).of_beginsSigned hsigned (endsInOperand_iff.1 hend)
    refine ⟨value, rest, hothers, hvalue, ?_⟩
    rw [List.append_assoc]
    exact tokenize_append_space_of_reads hs hreads

/-- Behind `(3)` the sign of `-.5*2` is an operator, behind `4/` it is not. -/
theorem tokenize_append_space_behind_group :
    tokenize "(3)" = .ok [.opening, .number 3, .closing] ∧
      tokenize "4/" = .ok [.number 4, .operator .div] ∧
      tokenize "\t-.5*2" = .ok [.number (-0.5), .operator .mul, .number 2] ∧
      EndsInOperand [.opening, .number 3, .closing] ∧
      ¬ EndsInOperand [.number 4, .operator .div] ∧
      BeginsSigned .minus "\t-.5*2".toList ∧
      tokenize ("(3)" ++ " " ++ "\t-.5*2") = .ok [.opening, .number 3, .closing, .operator .sub,
        .number 0.5, .operator .mul, .number 2] ∧
      tokenize ("4/" ++ " " ++ "\t-.5*2") = .ok [.number 4, .operator .div, .number (-0.5),
        .operator .mul, .number 2] ∧
      tokenize "3&" = .error (.unknownCharacter '&' 1) ∧
      tokenize ("3&" ++ " " ++ "\t-.5*2") = .error (.unknownCharacter '&' 1) := by
  have hgroup : tokenize "(3)" = .ok [.opening, .number 3, .closing] := by decide +kernel
  have hquotient : tokenize "4/" = .ok [.number 4, .operator .div] := by decide +kernel
  have hproduct : tokenize "\t-.5*2" = .ok [.number (-0.5), .operator .mul, .number 2] := by
    decide +kernel
  have herror : tokenize "3&" = .error (.unknownCharacter '&' 1) := by decide +kernel
  have hend : EndsInOperand [.opening, .number 3, .closing] := endsInOperand_iff.2 rfl
  have hopen : ¬ EndsInOperand [.number 4, .operator .div] := by
    rw [endsInOperand_iff]
    decide
  have hsigned : BeginsSigned .minus "\t-.5*2".toList := ⟨'.', ['5', '*', '2'], by decide, rfl⟩
  have hhalf : (-0.5 : Number).negate = 0.5 := by decide +kernel
  obtain ⟨value, rest, hothers, -, hapart⟩ :=
    ((tokenize_append_space "(3)" "\t-.5*2").2 _ _ hgroup hproduct).2 .minus hend hsigned
  have halike := ((tokenize_append_space "4/" "\t-.5*2").2 _ _ hquotient hproduct).1
    fun hseam => hopen hseam.1
  have hfirst := (tokenize_append_space "3&" "\t-.5*2").1 _ herror
  obtain ⟨hvalue, rfl⟩ := List.cons.inj hothers
  obtain rfl := Token.number.inj hvalue
  rw [Sign.apply, hhalf] at hapart
  exact ⟨hgroup, hquotient, hproduct, hend, hopen, hsigned, hapart, halike, herror, hfirst⟩

end Calculator
