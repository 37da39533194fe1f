import Calculator.Proofs.Literal
import Calculator.Scan

/-!
# The grammar of texts

A text of tokens is made of lexemes, with blanks before, between and behind them. `tokenize_eq_ok_iff`:
those are the texts that are read without error, and the tokens are those of their lexemes.
-/

namespace Calculator

/-- A `+` or `-` between the token `previous` and the text `rest` is the sign of a literal. -/
def SignsLiteral (previous : Option Token) (rest : List Char) : Prop :=
  (previous = none ∨ (∃ op, previous = some (.operator op)) ∨ previous = some .opening) ∧
    ∃ c, rest.head? = some c ∧ isNumeric c = true

/-- A character that is a token by itself. -/
inductive Symbol : Char → Token → Prop
  | add : Symbol '+' (.operator .add)
  | sub : Symbol '-' (.operator .sub)
  | mul : Symbol '*' (.operator .mul)
  | div : Symbol '/' (.operator .div)
  | opening : Symbol '(' .opening
  | closing : Symbol ')' .closing

/-- Between the token `previous` and the text `rest`, a lexeme is a token: a symbol, or a literal
that `rest` does not continue. -/
inductive Lexeme.Denotes (previous : Option Token) (rest : List Char) : Lexeme → Token → Prop
  | symbol {c : Char} {token : Token} (hsymbol : Symbol c token)
      (hsign : c = '+' ∨ c = '-' → ¬ SignsLiteral previous rest) :
      Denotes previous rest (.symbol c) token
  | literal {sign? : Option Sign} {run : List Char} (hrun : IsNumeral run)
      (hend : ∀ c, rest.head? = some c → isNumeric c = false)
      (hsign : sign? ≠ none → SignsLiteral previous (run ++ rest)) :
      Denotes previous rest (.literal sign? run)
        (.number ((sign?.getD .plus).apply (Number.ofNumeral run)))

/-- After the token `previous`, the text is blanks and lexemes that are the given tokens. -/
inductive Reads : Option Token → List Char → List Token → Prop
  | blanks {previous : Option Token} {blanks : List Char} (hb : ∀ c ∈ blanks, isBlank c = true) :
      Reads previous blanks []
  | token {previous : Option Token} {blanks rest : List Char} {lexeme : Lexeme} {token : Token}
      {tokens : List Token} (hb : ∀ c ∈ blanks, isBlank c = true)
      (hlexeme : lexeme.Denotes previous rest token) (hrest : Reads (some token) rest tokens) :
      Reads previous (blanks ++ (lexeme.chars ++ rest)) (token :: tokens)

/-- The last token before what comes behind the given ones. -/
def lastOr (previous : Option Token) (tokens : List Token) : Option Token :=
  (previous.toList ++ tokens).getLast?

theorem lastOr_nil (previous : Option Token) : lastOr previous [] = previous := by
  cases previous <;> rfl

theorem lastOr_cons (previous : Option Token) (token : Token) (tokens : List Token) :
    lastOr previous (token :: tokens) = lastOr (some token) tokens := by
  rw [lastOr, lastOr, List.getLast?_append, Option.toList_some, List.singleton_append,
    List.getLast?_cons]
  rfl

/-! ## Characters -/

theorem signMayFollow_iff {previous : Option Token} : Token.signMayFollow previous = true ↔
    previous = none ∨ (∃ op, previous = some (.operator op)) ∨ previous = some .opening := by
  cases previous with
  | none => simp [Token.signMayFollow]
  | some token => cases token <;> simp [Token.signMayFollow, Token.admitsSign]

theorem signsLiteral_iff {previous : Option Token} {rest : List Char} :
    SignsLiteral previous rest ↔
      (Token.signMayFollow previous && rest.head?.any isNumeric) = true := by
  rw [Bool.and_eq_true, signMayFollow_iff, Option.any_eq_true]
  rfl

namespace Symbol

theorem of_operator : ∀ op : Operator, Symbol op.symbol (.operator op)
  | .add => .add
  | .sub => .sub
  | .mul => .mul
  | .div => .div

theorem of_ofSymbol? {c : Char} {token : Token} (h : Token.ofSymbol? c = some token) :
    Symbol c token := by
  unfold Token.ofSymbol? at h
  split at h
  · cases h
    exact opening
  · cases h
    exact closing
  · obtain ⟨op, hop, rfl⟩ := Option.map_eq_some_iff.1 h
    rw [← Operator.ofSymbol?_eq_some_iff.1 hop]
    exact of_operator op

theorem ofSymbol?_eq {c : Char} {token : Token} (h : Symbol c token) :
    Token.ofSymbol? c = some token := by
  cases h <;> rfl

theorem isNumeric_eq {c : Char} {token : Token} (h : Symbol c token) : isNumeric c = false := by
  cases h <;> rfl

theorem isBlank_eq {c : Char} {token : Token} (h : Symbol c token) : isBlank c = false := by
  cases h <;> rfl

end Symbol

theorem isBlank_of_isNumeric {c : Char} (h : isNumeric c = true) : isBlank c = false := by
  cases hb : isBlank c with
  | false => rfl
  | true =>
    simp only [isBlank, Bool.or_eq_true, beq_iff_eq, or_assoc] at hb
    rcases hb with rfl | rfl | rfl | rfl | rfl <;> cases h

theorem ofSymbol?_ne_none_iff {c : Char} : Sign.ofSymbol? c ≠ none ↔ c = '+' ∨ c = '-' := by
  constructor
  · intro h
    obtain ⟨sign, hsign⟩ := Option.ne_none_iff_exists'.1 h
    rw [← Sign.ofSymbol?_eq_some_iff.1 hsign]
    exact sign.symbol_eq
  · rintro (rfl | rfl) <;> decide

/-! ## Lexemes -/

namespace Lexeme

theorem split_literal (signed : Bool) {c : Char} (rest : List Char) (hc : isNumeric c = true) :
    split signed c rest =
      (literal none (c :: rest.takeWhile isNumeric), rest.dropWhile isNumeric) := by
  simp [split, hc]

theorem split_signed {c : Char} {sign : Sign} {rest : List Char} (hc : isNumeric c = false)
    (hs : Sign.ofSymbol? c = some sign) (hnext : rest.head?.any isNumeric = true) :
    split true c rest =
      (literal (some sign) (rest.takeWhile isNumeric), rest.dropWhile isNumeric) := by
  simp [split, hc, hs, hnext]

theorem split_symbol {signed : Bool} {c : Char} {rest : List Char} (hc : isNumeric c = false)
    (hs : Sign.ofSymbol? c ≠ none → (signed && rest.head?.any isNumeric) = false) :
    split signed c rest = (symbol c, rest) := by
  cases h : Sign.ofSymbol? c with
  | none => simp [split, hc, h]
  | some sign => simp [split, hc, h, hs (by simp [h])]

/-- What `split` takes off the text `c :: rest`. -/
inductive Split (signed : Bool) (c : Char) (rest : List Char) : Lexeme × List Char → Prop
  | run (hc : isNumeric c = true) :
      Split signed c rest (literal none (c :: rest.takeWhile isNumeric), rest.dropWhile isNumeric)
  | signed {sign : Sign} (hc : Sign.ofSymbol? c = some sign)
      (hnext : (signed && rest.head?.any isNumeric) = true) :
      Split signed c rest
        (literal (some sign) (rest.takeWhile isNumeric), rest.dropWhile isNumeric)
  | symbol (hc : isNumeric c = false)
      (hsign : Sign.ofSymbol? c ≠ none → (signed && rest.head?.any isNumeric) = false) :
      Split signed c rest (Lexeme.symbol c, rest)

theorem split_view (signed : Bool) (c : Char) (rest : List Char) :
    Split signed c rest (split signed c rest) := by
  cases hc : isNumeric c with
  | true =>
    rw [split_literal _ _ hc]
    exact .run hc
  | false =>
    by_cases hs : ∃ sign, Sign.ofSymbol? c = some sign ∧ (signed && rest.head?.any isNumeric) = true
    · obtain ⟨sign, hsign, hnext⟩ := hs
      obtain ⟨rfl, hhead⟩ := Bool.and_eq_true_iff.1 hnext
      rw [split_signed hc hsign hhead]
      exact .signed hsign hnext
    · have hno : Sign.ofSymbol? c ≠ none → (signed && rest.head?.any isNumeric) = false := by
        intro hne
        obtain ⟨sign, hsign⟩ := Option.ne_none_iff_exists'.1 hne
        exact Bool.eq_false_iff.2 fun hnext => hs ⟨sign, hsign, hnext⟩
      rw [split_symbol hc hno]
      exact .symbol hc hno

theorem takeWhile_isNumeric (rest : List Char) : ∀ c ∈ rest.takeWhile isNumeric, isNumeric c = true :=
  List.all_eq_true.1 List.all_takeWhile

theorem takeWhile_isNumeric_ne_nil {rest : List Char} (h : rest.head?.any isNumeric = true) :
    rest.takeWhile isNumeric ≠ [] := by
  cases rest with
  | nil => cases h
  | cons c rest =>
    have hc : isNumeric c = true := h
    simp [hc]

theorem dropWhile_isNumeric (rest : List Char) :
    ∀ c, (rest.dropWhile isNumeric).head? = some c → isNumeric c = false := by
  intro c hc
  have := List.head?_dropWhile_not isNumeric rest
  rw [hc] at this
  exact this

/-- A lexeme that is read as a token is that token where it stands. -/
theorem denotes_of_read {previous : Option Token} {position : Nat} {c : Char} {rest : List Char}
    {token : Token}
    (h : (split (Token.signMayFollow previous) c rest).1.read position = .ok token) :
    (split (Token.signMayFollow previous) c rest).1.Denotes previous
      (split (Token.signMayFollow previous) c rest).2 token := by
  have hview := split_view (Token.signMayFollow previous) c rest
  generalize split (Token.signMayFollow previous) c rest = parts at h hview ⊢
  cases hview with
  | run hc =>
    have hrun : ∀ d ∈ c :: rest.takeWhile isNumeric, isNumeric d = true :=
      List.forall_mem_cons.2 ⟨hc, takeWhile_isNumeric rest⟩
    obtain ⟨hnumeral, rfl⟩ := (read_literal_eq_ok_iff _ _ hrun).1 h
    exact .literal hnumeral (dropWhile_isNumeric rest) fun hne => absurd rfl hne
  | signed hc hnext =>
    obtain ⟨hnumeral, rfl⟩ := (read_literal_eq_ok_iff _ _ (takeWhile_isNumeric rest)).1 h
    refine .literal hnumeral (dropWhile_isNumeric rest) fun _ => ?_
    rw [List.takeWhile_append_dropWhile]
    exact signsLiteral_iff.2 hnext
  | symbol hc hsign =>
    cases htoken : Token.ofSymbol? c with
    | none => simp [read, htoken] at h
    | some token' =>
      simp only [read, htoken] at h
      cases h
      refine .symbol (.of_ofSymbol? htoken) fun hpm hliteral => ?_
      have hno := hsign (ofSymbol?_ne_none_iff.2 hpm)
      rw [signsLiteral_iff.1 hliteral] at hno
      cases hno

theorem takeWhile_append_of_end {run rest : List Char} (hrun : ∀ c ∈ run, isNumeric c = true)
    (hend : ∀ c, rest.head? = some c → isNumeric c = false) :
    (run ++ rest).takeWhile isNumeric = run ∧ (run ++ rest).dropWhile isNumeric = rest := by
  rw [List.takeWhile_append_of_pos hrun, List.dropWhile_append_of_pos hrun]
  cases rest with
  | nil => simp
  | cons c rest => simp [hend c rfl]

/-- A lexeme is split off the text it begins, and is read as its token. -/
theorem split_of_denotes {previous : Option Token} {rest : List Char} {lexeme : Lexeme}
    {token : Token} (h : lexeme.Denotes previous rest token) :
    ∃ c chars, lexeme.chars = c :: chars ∧ isBlank c = false ∧
      split (Token.signMayFollow previous) c (chars ++ rest) = (lexeme, rest) ∧
      ∀ position, lexeme.read position = .ok token := by
  cases h with
  | @symbol c token hsymbol hsign =>
    refine ⟨c, [], rfl, hsymbol.isBlank_eq, ?_, fun position => by simp [read, hsymbol.ofSymbol?_eq]⟩
    refine split_symbol hsymbol.isNumeric_eq fun hne => ?_
    have hno := hsign (ofSymbol?_ne_none_iff.1 hne)
    rw [signsLiteral_iff] at hno
    exact Bool.eq_false_iff.2 hno
  | @literal sign? run hrun hend hsign =>
    obtain ⟨htake, hdrop⟩ := takeWhile_append_of_end hrun.numeric hend
    have hread := fun position => (read_literal_eq_ok_iff position sign? hrun.numeric).2 ⟨hrun, rfl⟩
    cases sign? with
    | none =>
      obtain ⟨c, chars, rfl, hc⟩ := hrun.exists_cons
      refine ⟨c, chars, rfl, isBlank_of_isNumeric hc, ?_, hread⟩
      simp only [List.cons_append, List.takeWhile_cons, List.dropWhile_cons, hc, ite_true,
        List.cons.injEq, true_and] at htake hdrop
      rw [split_literal _ _ hc, htake, hdrop]
    | some sign =>
      have hs := signsLiteral_iff.1 (hsign (by simp))
      obtain ⟨hfollow, hhead⟩ := Bool.and_eq_true_iff.1 hs
      have hsymbol : Symbol sign.symbol (.operator sign.operator) := .of_operator sign.operator
      refine ⟨sign.symbol, run, rfl, hsymbol.isBlank_eq, ?_, hread⟩
      rw [hfollow, split_signed hsymbol.isNumeric_eq (Sign.ofSymbol?_eq_some_iff.2 rfl) hhead, htake,
        hdrop]

end Lexeme

/-! ## Texts -/

theorem after_blanks_append (previous : Option Token) (position : Nat) {blanks : List Char}
    (hb : ∀ c ∈ blanks, isBlank c = true) (rest : List Char) :
    Scan.after previous position (blanks ++ rest) =
      Scan.after previous (position + blanks.length) rest := by
  induction blanks generalizing position with
  | nil => rfl
  | cons c blanks ih =>
    rw [List.cons_append, Scan.after_blank _ _ _ (hb c (List.mem_cons_self ..)),
      ih _ fun d hd => hb d (List.mem_cons_of_mem _ hd), List.length_cons]
    congr 1
    omega

theorem after_of_reads {previous : Option Token} {text : List Char} {tokens : List Token}
    (h : Reads previous text tokens) (position : Nat) :
    Scan.after previous position text = ⟨tokens, none⟩ := by
  induction h generalizing position with
  | @blanks previous blanks hb =>
    have := after_blanks_append previous position hb []
    rwa [List.append_nil, Scan.after_nil] at this
  | @token previous blanks rest lexeme token tokens hb hlexeme hrest ih =>
    obtain ⟨c, chars, hchars, hc, hsplit, hread⟩ := Lexeme.split_of_denotes hlexeme
    rw [after_blanks_append _ _ hb, hchars, List.cons_append,
      Scan.after_token hc hsplit (hread _), ih]
    rfl

theorem Reads.cons_blank {previous : Option Token} {c : Char} {text : List Char}
    {tokens : List Token} (hc : isBlank c = true) (h : Reads previous text tokens) :
    Reads previous (c :: text) tokens := by
  have hcons : ∀ blanks : List Char, (∀ d ∈ blanks, isBlank d = true) →
      ∀ d ∈ c :: blanks, isBlank d = true := by
    intro blanks hb d hd
    rcases List.mem_cons.1 hd with rfl | hd
    · exact hc
    · exact hb d hd
  cases h with
  | blanks hb => exact .blanks (hcons _ hb)
  | token hb hlexeme hrest => exact .token (hcons _ hb) hlexeme hrest

theorem Reads.cons_lexeme {previous : Option Token} {lexeme : Lexeme} {token : Token}
    {rest : List Char} {tokens : List Token} (hlexeme : lexeme.Denotes previous rest token)
    (hrest : Reads (some token) rest tokens) :
    Reads previous (lexeme.chars ++ rest) (token :: tokens) :=
  @Reads.token previous [] _ _ _ _ (by simp) hlexeme hrest

theorem reads_of_after {previous : Option Token} {position : Nat} {text : List Char}
    (h : (Scan.after previous position text).failure? = none) :
    Reads previous text (Scan.after previous position text).tokens := by
  fun_induction Scan.after previous position text with
  | case1 => exact .blanks (by simp)
  | case2 previous position c rest hc ih => exact (ih h).cons_blank hc
  | case3 previous position c rest hc lexeme token hread ih =>
    have hrest := Reads.cons_lexeme (Lexeme.denotes_of_read hread) (ih h)
    rwa [Lexeme.chars_split_append] at hrest
  | case4 previous position c rest hc lexeme error hread => cases h

theorem reads_iff_after {previous : Option Token} {text : List Char} {tokens : List Token}
    (position : Nat) :
    Reads previous text tokens ↔ Scan.after previous position text = ⟨tokens, none⟩ := by
  refine ⟨fun h => after_of_reads h position, fun h => ?_⟩
  have hreads := @reads_of_after previous position text (by rw [h])
  rwa [h] at hreads

theorem tokenize_of_reads {source : String} {tokens : List Token}
    (h : Reads none source.toList tokens) : tokenize source = .ok tokens :=
  Scan.result_eq_ok_iff.2 ((reads_iff_after 0).1 h)

theorem reads_of_tokenize {source : String} {tokens : List Token}
    (h : tokenize source = .ok tokens) : Reads none source.toList tokens :=
  (reads_iff_after 0).2 (Scan.result_eq_ok_iff.1 h)

/-- **Grammar.** A text has tokens just if it is made of blanks and lexemes, and they are those of
its lexemes. -/
theorem tokenize_eq_ok_iff {source : String} {tokens : List Token} :
    tokenize source = .ok tokens ↔ Reads none source.toList tokens :=
  ⟨reads_of_tokenize, tokenize_of_reads⟩

end Calculator
