import Calculator.Proofs.Enclosure
import Calculator.Proofs.ErrorExcerpt
import Calculator.Proofs.TextLines

/-!
# What is written on a line

Numbers, tokens and messages hold no line feed. A message may quote the text of an expression, which
may hold line feeds; but those are blanks, and no error quotes a blank (`isBlank_of_mem_excerpt`).
-/

namespace Calculator

/-! ## Numbers -/

/-- The characters that numbers are written with. -/
def isNumberCharacter (c : Char) : Bool := c.isDigit || "-.einfNa".toList.contains c

theorem all_toDigits (n : Nat) : (Nat.toDigits 10 n).all isNumberCharacter = true := by
  rw [List.all_eq_true]
  intro c hc
  rw [isNumberCharacter, Nat.isDigit_of_mem_toDigits (by decide) (by decide) hc, Bool.true_or]

namespace Layout

theorem all_positional {mark : List Char} (hmark : mark.all isNumberCharacter = true) (d : Decimal) :
    (positional mark d).all isNumberCharacter = true := by
  have hzero : isNumberCharacter '0' = true := rfl
  have hpoint : isNumberCharacter '.' = true := rfl
  have hdigits := all_toDigits d.digits
  unfold positional
  dsimp only
  generalize Nat.toDigits 10 d.digits = digits at hdigits
  split
  · simp [hzero, hpoint, hdigits]
  · split
    · simp [hzero, hdigits, hmark]
    · rw [← List.take_append_drop (digits.length + d.exponent).toNat digits, List.all_append,
        Bool.and_eq_true] at hdigits
      simp [hpoint, hdigits]

theorem all_integer (n : Int) : (integer n).all isNumberCharacter = true := by
  have hhyphen : isNumberCharacter '-' = true := rfl
  unfold integer
  split <;> simp [hhyphen, all_toDigits]

theorem all_exponential (d : Decimal) : (exponential d).all isNumberCharacter = true := by
  have hpoint : isNumberCharacter '.' = true := rfl
  have he : isNumberCharacter 'e' = true := rfl
  have hdigits := all_toDigits d.digits
  unfold exponential
  dsimp only
  generalize Nat.toDigits 10 d.digits = digits at hdigits
  rw [← List.take_append_drop 1 digits, List.all_append, Bool.and_eq_true] at hdigits
  have hfraction : (if digits.length = 1 then [] else '.' :: digits.drop 1).all isNumberCharacter =
      true := by
    split
    · rfl
    · rw [List.all_cons, hpoint, hdigits.2, Bool.true_and]
  rw [List.all_append, List.all_append, hdigits.1, hfraction, List.all_cons, he, all_integer]
  rfl

theorem all_number {layout : Layout} (hmark : layout.wholeMark.all isNumberCharacter = true)
    (x : Number) : (layout.number x).all isNumberCharacter = true := by
  have hhyphen : isNumberCharacter '-' = true := rfl
  have hsign : (if x.isNegative then ['-'] else []).all isNumberCharacter = true := by
    split <;> simp [hhyphen]
  unfold number
  dsimp only
  split
  · rw [List.all_append, hsign, Bool.true_and, decimal]
    split
    · exact all_positional hmark _
    · exact all_exponential _
  · split
    · rw [List.all_append, hsign]
      rfl
    · rfl

theorem not_mem_number {layout : Layout} (hmark : layout.wholeMark.all isNumberCharacter = true)
    (x : Number) {c : Char} (hc : isNumberCharacter c = false) : c ∉ layout.number x := by
  intro hmem
  have hall := List.all_eq_true.1 (all_number hmark x) c hmem
  rw [hc] at hall
  cases hall

end Layout

theorem isLine_plain (x : Number) : IsLine (Event.plain x) := by
  rw [IsLine, Event.plain, String.toList_ofList]
  exact Layout.not_mem_number rfl x rfl

/-! ## Tokens -/

namespace Token

theorem isLine_describe (token : Token) : IsLine token.describe := by
  cases token with
  | number value =>
    have hvalue : IsLine (String.ofList (Layout.listing.number value)) := by
      rw [IsLine, String.toList_ofList]
      exact Layout.not_mem_number rfl value rfl
    have hname : IsLine "Number(" ∧ IsLine ")" := by decide
    simp only [describe, isLine_append, hvalue, hname, and_self]
  | operator op => cases op <;> decide
  | opening => decide
  | closing => decide

theorem feed_not_mem_spell (token : Token) : '\n' ∉ token.spell := by
  cases token with
  | number value => exact Layout.not_mem_number rfl value rfl
  | operator op => cases op <;> decide
  | opening => decide
  | closing => decide

theorem isLine_text (tokens : List Token) : IsLine (text tokens) := by
  rw [IsLine, text, String.toList_ofList, List.mem_flatMap]
  rintro ⟨token, -, hfeed⟩
  exact token.feed_not_mem_spell hfeed

end Token

theorem isLine_intercalate {separator : String} (hseparator : IsLine separator) {parts : List String}
    (h : ∀ part ∈ parts, IsLine part) : IsLine (separator.intercalate parts) := by
  induction parts with
  | nil => simp [IsLine]
  | cons part parts ih =>
    obtain ⟨hpart, hparts⟩ := List.forall_mem_cons.1 h
    by_cases hne : parts = []
    · rwa [hne, String.intercalate_singleton]
    · rw [String.intercalate_cons_of_ne_nil hne, isLine_append, isLine_append]
      exact ⟨⟨hpart, hseparator⟩, ih hparts⟩

theorem Batch.isLine_tokenLine (tokens : List Token) : IsLine (tokenLine tokens) := by
  have hlist : IsLine (", ".intercalate (tokens.map Token.describe)) := by
    refine isLine_intercalate (by decide) fun part hpart => ?_
    obtain ⟨token, -, rfl⟩ := List.mem_map.1 hpart
    exact token.isLine_describe
  have hframe : IsLine "tokens: [" ∧ IsLine "] (" ∧ IsLine ")" := by decide
  simp only [tokenLine, isLine_append, hlist, Token.isLine_text, hframe, and_self]

/-! ## Messages -/

theorem isLine_toString_nat (n : Nat) : IsLine (toString n) := by
  intro hfeed
  rw [Nat.toString_eq_ofList_toDigits, String.toList_ofList] at hfeed
  have hdigit := Nat.isDigit_of_mem_toDigits (by decide) (by decide) hfeed
  exact absurd hdigit (by decide)

theorem isLine_toString_char {c : Char} (hc : c ≠ '\n') : IsLine (toString c) := by
  show '\n' ∉ (String.singleton c).toList
  simpa using hc.symm

/-- What an error quotes is a part of a lexeme, so nothing of it is blank. -/
theorem Lexeme.isBlank_of_mem_excerpt {signed : Bool} {c : Char} {rest : List Char} {position : Nat}
    {error : LexicalError} (hc : isBlank c = false)
    (h : (split signed c rest).1.read position = .error error) :
    ∀ d ∈ error.excerpt, isBlank d = false := by
  have hview := split_view signed c rest
  generalize split signed c rest = parts at h hview
  cases hview with
  | run hnumeric =>
    have hrun : ∀ d ∈ c :: rest.takeWhile isNumeric, isNumeric d = true :=
      List.forall_mem_cons.2 ⟨hnumeric, takeWhile_isNumeric rest⟩
    obtain ⟨part, -, hpart, hexcerpt, -⟩ := exists_part_of_read hrun (by simp) h
    intro d hd
    rw [hexcerpt] at hd
    exact isBlank_of_isNumeric (hrun d (hpart.subset hd))
  | signed hsign hnext =>
    obtain ⟨-, hhead⟩ := Bool.and_eq_true_iff.1 hnext
    obtain rfl := Sign.ofSymbol?_eq_some_iff.1 hsign
    obtain ⟨part, -, hpart, hexcerpt, -⟩ :=
      exists_part_of_read (takeWhile_isNumeric rest) (takeWhile_isNumeric_ne_nil hhead) h
    intro d hd
    rw [hexcerpt] at hd
    rcases List.mem_cons.1 hd with rfl | hd
    · exact hc
    · exact isBlank_of_isNumeric (takeWhile_isNumeric rest d (hpart.subset hd))
  | symbol hnumeric hno =>
    intro d hd
    simp only [read] at h
    split at h
    · cases h
    · cases h
      rw [List.mem_singleton.1 hd]
      exact hc

theorem isBlank_of_mem_excerpt {source : String} {error : LexicalError}
    (h : tokenize source = .error error) : ∀ c ∈ error.excerpt, isBlank c = false := by
  obtain ⟨front, c, rest, last, -, -, hblank, herror⟩ :=
    exists_readsUpTo_of_failure (tokenize_eq_error_iff_failure.1 h)
  exact Lexeme.isBlank_of_mem_excerpt hblank herror

theorem LexicalError.isLine_message {error : LexicalError} (h : '\n' ∉ error.excerpt) :
    IsLine error.message := by
  cases error with
  | unknownCharacter c position =>
    have hc : c ≠ '\n' := fun heq => h (by simp [excerpt, heq])
    have hframe : IsLine "Unknown character '" ∧ IsLine "' at position " ∧ IsLine "." := by decide
    show IsLine ("Unknown character '" ++ toString c ++ "' at position " ++ toString position ++ ".")
    simp only [isLine_append, isLine_toString_nat, isLine_toString_char hc, hframe, and_self]
  | malformedNumber fragment position =>
    have hfragment : IsLine fragment := h
    have hframe : IsLine "Invalid number format near '" ∧ IsLine "' at position " ∧ IsLine "." := by
      decide
    show IsLine
      ("Invalid number format near '" ++ fragment ++ "' at position " ++ toString position ++ ".")
    simp only [isLine_append, isLine_toString_nat, hfragment, hframe, and_self]

theorem isLine_message_of_tokenize {source : String} {error : LexicalError}
    (h : tokenize source = .error error) : IsLine error.message := by
  refine LexicalError.isLine_message fun hfeed => ?_
  have hblank := isBlank_of_mem_excerpt h '\n' hfeed
  cases hblank

theorem parenthesis_of_evaluate {source : String} {parenthesis : Char}
    (h : (evaluate source).outcome = .error (.unmatched parenthesis)) :
    parenthesis = '(' ∨ parenthesis = ')' := by
  rw [outcome_evaluate] at h
  rcases bind_eq_error.1 h with htokens | ⟨tokens, -, hvalue⟩
  · cases hread : tokenize source with
    | ok tokens => rw [hread] at htokens; cases htokens
    | error error => rw [hread] at htokens; cases htokens
  · have hverdict := verdict tokens
    rw [outcome_collapseGroups_of_unmatched hvalue] at hverdict
    exact hverdict.eq_or_eq_of_unmatched

theorem isLine_message_of_evaluate {source : String} {error : Error}
    (h : (evaluate source).outcome = .error error) : IsLine error.message := by
  cases error with
  | lexical error => exact isLine_message_of_tokenize (outcome_evaluate_eq_lexical_iff.1 h)
  | unmatched parenthesis =>
    rcases parenthesis_of_evaluate h with rfl | rfl <;> decide
  | malformed => decide
  | divisionByZero => decide

end Calculator
