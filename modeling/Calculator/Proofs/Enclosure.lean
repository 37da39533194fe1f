import Calculator.Number.Bits
import Calculator.Proofs.Parentheses
import Calculator.Proofs.Precedence
import Calculator.Proofs.TextParts

/-!
# Texts in parentheses

A text that has a value, or fails for a division by zero, comes to the same in parentheses, whatever
stands around them. `outcome_evaluate_enclose`: any number of parentheses changes nothing but the
position of a lexical error. `outcome_evaluate_operation`: an operator between two texts in
parentheses is applied to their values.
-/

namespace Calculator

def grouped (tokens : List Token) : List Token := .opening :: (tokens ++ [.closing])

theorem grouped_append (tokens behind : List Token) :
    grouped tokens ++ behind = Token.opening :: (tokens ++ Token.closing :: behind) := by
  simp [grouped]

/-! ## Groups with evaluable contents -/

/-- The contents of a group are evaluated as they are alone, before anything in front of the group.
That they are not balanced is no matter if they fail before that shows. -/
theorem outcome_valueOf_enclosed {tokens : List Token} (h : Arithmetic (valueOf tokens).outcome)
    (before : List Token) {behind : List Token} (hbehind : Token.opening ∉ behind) :
    (valueOf (before ++ (grouped tokens ++ behind))).outcome =
      (valueOf tokens).outcome >>= fun value =>
        (valueOf (before ++ Token.number value :: behind)).outcome := by
  simp only [grouped_append]
  induction tokens using Group.induction with
  | flat tokens ho =>
    obtain ⟨chain, rfl⟩ := exists_chain_of_arithmetic ho h
    have hlast : Group.IsLast ⟨before, chain.toTokens, behind⟩ :=
      ⟨ho, chain.not_mem_toTokens.2, hbehind⟩
    have hstep := outcome_valueOf_group hlast
    rwa [groupValue_of_signedChain (signedChain_toTokens chain), ← chain.outcome_valueOf] at hstep
  | unclosed front after ho hc =>
    rw [outcome_valueOf, collapseGroups_unclosed front ho hc] at h
    cases h _ rfl
  | last group hlast ih =>
    -- the same group, seen in the wider text
    have hwide : Group.IsLast
        ⟨before ++ Token.opening :: group.before, group.inside,
          group.behind ++ Token.closing :: behind⟩ :=
      ⟨hlast.opening_inside, hlast.closing_inside, by simp [hlast.opening_behind, hbehind]⟩
    have hstep := outcome_valueOf_group hwide
    rw [outcome_valueOf_group hlast] at h
    rw [outcome_valueOf_group hlast]
    simp only [Group.tokens, Group.replaceBy, List.append_assoc, List.cons_append] at hstep ih h ⊢
    rw [hstep]
    cases hvalue : groupValue group.inside with
    | error error => rfl
    | ok value =>
      rw [hvalue, ok_bind] at h
      exact ih value h

theorem outcome_valueOf_number (value : Number) :
    (valueOf [.number value]).outcome = .ok value :=
  Chain.outcome_valueOf ⟨value, []⟩

theorem outcome_valueOf_grouped {tokens : List Token} (h : Arithmetic (valueOf tokens).outcome) :
    (valueOf (grouped tokens)).outcome = (valueOf tokens).outcome := by
  have henclosed := outcome_valueOf_enclosed h [] List.not_mem_nil
  simp only [List.nil_append, List.append_nil, outcome_valueOf_number, bind_ok_right] at henclosed
  exact henclosed

theorem outcome_valueOf_operation {left right : List Token} {a b : Number}
    (ha : (valueOf left).outcome = .ok a) (hb : (valueOf right).outcome = .ok b) (op : Operator) :
    (valueOf (grouped left ++ Token.operator op :: grouped right)).outcome = op.apply a b := by
  have hright := outcome_valueOf_enclosed (hb ▸ arithmetic_ok b)
    (grouped left ++ [Token.operator op]) List.not_mem_nil
  have hleft := @outcome_valueOf_enclosed left (ha ▸ arithmetic_ok a) []
    [.operator op, .number b] (by simp)
  have hchain := groupValue_of_signedChain (signedChain_toTokens ⟨a, [(op, b)]⟩)
  rw [← Chain.outcome_valueOf] at hchain
  rw [hb, ok_bind] at hright
  rw [ha, ok_bind] at hleft
  simp only [List.append_assoc, List.cons_append, List.nil_append, List.append_nil] at hright hleft
  rw [hright, hleft]
  exact hchain.symm.trans (Expression.groupValue_operation op a b)

/-! ## The tokens of a text in parentheses -/

theorem Reads.enclosed {previous : Option Token} {text rest : List Char}
    {tokens others : List Token} (h : Reads none text tokens)
    (hrest : Reads (some .closing) rest others) :
    Reads previous ('(' :: (text ++ ')' :: rest)) (grouped tokens ++ others) := by
  have hcontents : Reads (some .opening) text tokens := h.congr rfl
  have hclosing : Reads (lastOr (some .opening) tokens) (')' :: rest) (.closing :: others) :=
    Reads.cons_lexeme (.symbol .closing (by simp)) hrest
  rw [grouped_append]
  exact Reads.cons_lexeme (.symbol .opening (by simp))
    (hcontents.append hclosing (parted_cons text rfl rest))

theorem toList_parentheses (text : String) :
    ("(" ++ text ++ ")").toList = '(' :: (text.toList ++ [')']) := by
  simp [String.toList_append]

theorem tokenize_parentheses {source : String} {tokens : List Token}
    (h : tokenize source = .ok tokens) :
    tokenize ("(" ++ source ++ ")") = .ok (grouped tokens) := by
  apply tokenize_of_reads
  rw [toList_parentheses, ← List.append_nil (grouped tokens)]
  exact (reads_of_tokenize h).enclosed (.blanks (by simp))

theorem tokenize_parentheses_error {source : String} {error : LexicalError}
    (h : tokenize source = .error error) :
    tokenize ("(" ++ source ++ ")") = .error (error.shift 1) := by
  have hfailure := tokenize_eq_error_iff_failure.1 h
  -- a sign at the start is one after the parenthesis too
  have hsign : Token.signMayFollow (some .opening) = Token.signMayFollow none := rfl
  have hshift := Scan.after_add none 0 1 (source.toList ++ [')'])
  rw [Scan.after_append none 0 (parted_cons source.toList rfl []), Scan.andThen_of_failure hfailure,
    ← Scan.after_congr hsign] at hshift
  have hopening : Scan.after none 0 ('(' :: (source.toList ++ [')'])) =
      Scan.cons .opening (Scan.after (some .opening) (0 + 1) (source.toList ++ [')'])) :=
    Scan.after_token rfl (Lexeme.split_symbol rfl fun hne => absurd rfl hne) rfl
  rw [tokenize_eq_error_iff_failure, toList_parentheses, hopening, hshift]
  simp [Scan.cons, Scan.mapFailure, hfailure]

theorem tokenize_operation {left right : String} {tokens others : List Token}
    (hleft : tokenize left = .ok tokens) (hright : tokenize right = .ok others) (op : Operator) :
    tokenize ("(" ++ left ++ ")" ++ String.singleton op.symbol ++ "(" ++ right ++ ")") =
      .ok (grouped tokens ++ Token.operator op :: grouped others) := by
  have hlexeme : ∀ rest, Lexeme.Denotes (some .closing) rest (.symbol op.symbol) (.operator op) := by
    intro rest
    exact .symbol (.of_operator op) fun _ hsign => by simp [SignsLiteral] at hsign
  have hend : Reads (some (.operator op)) ('(' :: (right.toList ++ [')'])) (grouped others ++ []) :=
    (reads_of_tokenize hright).enclosed (.blanks (by simp))
  have hreads : Reads none _ _ :=
    (reads_of_tokenize hleft).enclosed (Reads.cons_lexeme (hlexeme _) hend)
  apply tokenize_of_reads
  simpa [String.toList_append, Lexeme.chars] using hreads

/-! ## The value of a text in parentheses -/

theorem exists_tokens_of_arithmetic {source : String} (h : Arithmetic (evaluate source).outcome) :
    ∃ tokens, tokenize source = .ok tokens ∧
      (evaluate source).outcome = (valueOf tokens).outcome := by
  cases htokens : tokenize source with
  | ok tokens => exact ⟨tokens, rfl, outcome_evaluate_of_tokenize htokens⟩
  | error error =>
    rw [outcome_evaluate, htokens] at h
    cases h _ rfl

theorem valueOf_ne_lexical (tokens : List Token) (error : LexicalError) :
    (valueOf tokens).outcome ≠ .error (.lexical error) := by
  intro h
  rw [outcome_valueOf] at h
  rcases bind_eq_error.1 h with hcollapse | ⟨flat, -, hflat⟩
  · have hverdict := verdict tokens
    rw [hcollapse] at hverdict
    cases hverdict with
    | withoutValue _ hvalue => rcases error_of_valueOfFlat hvalue with he | he <;> cases he
  · rcases error_of_valueOfFlat hflat with he | he <;> cases he

theorem outcome_evaluate_eq_lexical_iff {source : String} {error : LexicalError} :
    (evaluate source).outcome = .error (.lexical error) ↔ tokenize source = .error error := by
  rw [outcome_evaluate]
  cases tokenize source with
  | ok tokens => simpa [Except.mapError] using valueOf_ne_lexical tokens error
  | error error' => simp [Except.mapError]

theorem outcome_evaluate_parentheses {source : String} (h : Arithmetic (evaluate source).outcome) :
    (evaluate ("(" ++ source ++ ")")).outcome = (evaluate source).outcome := by
  obtain ⟨tokens, htokens, houtcome⟩ := exists_tokens_of_arithmetic h
  rw [houtcome] at h ⊢
  rw [outcome_evaluate_of_tokenize (tokenize_parentheses htokens), outcome_valueOf_grouped h]

theorem outcome_evaluate_parentheses_lexical {source : String} {error : LexicalError}
    (h : (evaluate source).outcome = .error (.lexical error)) :
    (evaluate ("(" ++ source ++ ")")).outcome = .error (.lexical (error.shift 1)) := by
  rw [outcome_evaluate_eq_lexical_iff] at h ⊢
  exact tokenize_parentheses_error h

/-- The text with as many parentheses around it. -/
def enclose (depth : Nat) (text : String) : String :=
  String.ofList (List.replicate depth '(') ++ text ++ String.ofList (List.replicate depth ')')

theorem enclose_zero (text : String) : enclose 0 text = text := by
  simp [enclose]

theorem enclose_succ (depth : Nat) (text : String) :
    enclose (depth + 1) text = "(" ++ enclose depth text ++ ")" := by
  have hopening : List.replicate (depth + 1) '(' = '(' :: List.replicate depth '(' :=
    List.replicate_succ
  have hclosing : List.replicate (depth + 1) ')' = List.replicate depth ')' ++ [')'] :=
    List.replicate_succ'
  rw [← String.toList_inj, toList_parentheses, enclose, enclose, hopening, hclosing]
  simp [String.toList_append]

theorem outcome_evaluate_enclose_of_arithmetic {source : String}
    (h : Arithmetic (evaluate source).outcome) (depth : Nat) :
    (evaluate (enclose depth source)).outcome = (evaluate source).outcome := by
  induction depth with
  | zero => rw [enclose_zero]
  | succ depth ih =>
    have hdepth : Arithmetic (evaluate (enclose depth source)).outcome := by rwa [ih]
    rw [enclose_succ, outcome_evaluate_parentheses hdepth, ih]

theorem outcome_evaluate_enclose_lexical {source : String} {error : LexicalError}
    (h : (evaluate source).outcome = .error (.lexical error)) (depth : Nat) :
    (evaluate (enclose depth source)).outcome = .error (.lexical (error.shift depth)) := by
  induction depth with
  | zero => rw [enclose_zero, LexicalError.shift_zero, h]
  | succ depth ih =>
    rw [enclose_succ, outcome_evaluate_parentheses_lexical ih, LexicalError.shift_shift]

/-- **Parentheses around a text.** They change neither its value nor a division by zero, and of a
lexical error only the position. -/
theorem outcome_evaluate_enclose (source : String) (depth : Nat) :
    (∀ value, (evaluate source).outcome = .ok value →
      (evaluate (enclose depth source)).outcome = .ok value) ∧
    ((evaluate source).outcome = .error .divisionByZero →
      (evaluate (enclose depth source)).outcome = .error .divisionByZero) ∧
    ∀ error, (evaluate source).outcome = .error (.lexical error) →
      (evaluate (enclose depth source)).outcome = .error (.lexical (error.shift depth)) := by
  refine ⟨?value, ?division, ?lexical⟩
  case value =>
    intro value h
    rw [outcome_evaluate_enclose_of_arithmetic (h ▸ arithmetic_ok value), h]
  case division =>
    intro h
    rw [outcome_evaluate_enclose_of_arithmetic (h ▸ arithmetic_divisionByZero), h]
  case lexical =>
    intro error h
    exact outcome_evaluate_enclose_lexical h depth

/-- One text for each case. In `)(1/0)` the division is worked out before the parenthesis without partner
is met, and so it is in parentheses. -/
theorem outcome_evaluate_enclose_unbalanced :
    (evaluate "-3*(- 3)").outcome = .ok 9 ∧
      (evaluate "((-3*(- 3)))").outcome = .ok 9 ∧
      (evaluate ")(1/0)").outcome = .error .divisionByZero ∧
      (evaluate "(()(1/0)))").outcome = .error .divisionByZero ∧
      (evaluate "- é").outcome = .error (.lexical (.unknownCharacter 'é' 2)) ∧
      (evaluate "((- é))").outcome = .error (.lexical (.unknownCharacter 'é' 4)) := by
  have hvalue : (evaluate "-3*(- 3)").outcome = .ok 9 := by decide +kernel
  have hdivision : (evaluate ")(1/0)").outcome = .error .divisionByZero := by decide +kernel
  have hlexical : (evaluate "- é").outcome = .error (.lexical (.unknownCharacter 'é' 2)) := by
    decide +kernel
  exact ⟨hvalue, (outcome_evaluate_enclose "-3*(- 3)" 2).1 _ hvalue, hdivision,
    (outcome_evaluate_enclose ")(1/0)" 2).2.1 hdivision, hlexical,
    (outcome_evaluate_enclose "- é" 2).2.2 _ hlexical⟩

/-! ## Operations on texts -/

theorem Operator.apply_eq_divisionByZero_iff (op : Operator) (a b : Number) :
    op.apply a b = .error .divisionByZero ↔ op = .div ∧ (b = 0 ∨ b = -0.0) := by
  cases op with
  | add => simp [apply]
  | sub => simp [apply]
  | mul => simp [apply]
  | div =>
    rw [← Number.isZero_iff, apply]
    cases b.isZero <;> simp

/-- **Operations on texts.** With an operator between two texts in parentheses, the operator is applied
to their values. The one error that can come of it is a division by zero. -/
theorem outcome_evaluate_operation {left right : String} {a b : Number}
    (ha : (evaluate left).outcome = .ok a) (hb : (evaluate right).outcome = .ok b) (op : Operator) :
    (evaluate ("(" ++ left ++ ")" ++ String.singleton op.symbol ++ "(" ++ right ++ ")")).outcome =
      op.apply a b ∧
    (op.apply a b = .error .divisionByZero ↔ op = .div ∧ (b = 0 ∨ b = -0.0)) := by
  refine ⟨?_, op.apply_eq_divisionByZero_iff a b⟩
  obtain ⟨tokens, htokens, hleft⟩ := exists_tokens_of_arithmetic (ha ▸ arithmetic_ok a)
  obtain ⟨others, hothers, hright⟩ := exists_tokens_of_arithmetic (hb ▸ arithmetic_ok b)
  rw [outcome_evaluate_of_tokenize (tokenize_operation htokens hothers op)]
  exact outcome_valueOf_operation (hleft.symm.trans ha) (hright.symm.trans hb) op

/-- `0*-1` is a zero with sign, by which nothing can be divided. -/
theorem outcome_evaluate_operation_negative_zero :
    (evaluate "1-(- 2)").outcome = .ok 3 ∧ (evaluate "0*-1").outcome = .ok (-0.0) ∧
      (evaluate "(1-(- 2))/(0*-1)").outcome = .error .divisionByZero := by
  have ha : (evaluate "1-(- 2)").outcome = .ok 3 := by decide +kernel
  have hb : (evaluate "0*-1").outcome = .ok (-0.0) := by decide +kernel
  obtain ⟨hvalue, hdivision⟩ := outcome_evaluate_operation ha hb .div
  exact ⟨ha, hb, hvalue.trans (hdivision.2 ⟨rfl, Or.inr rfl⟩)⟩

end Calculator
