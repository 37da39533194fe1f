import Calculator.Proofs.Grammar

/-!
# The front of a text

The front of a text is read with what follows it in view: a run of digits and points must end there,
and a sign must not be that of a number. `exists_readsUpTo_of_failure`: a scan that fails has read the
front of the text, up to the lexeme it fails at.
-/

namespace Calculator

/-- Before the text `rest`, the text is blanks and lexemes that are the given tokens. The token right
before `rest` is `last`. -/
inductive ReadsUpTo (rest : List Char) (last : Option Token) :
    Option Token → List Char → List Token → Prop
  | blanks {blanks : List Char} (hb : ∀ c ∈ blanks, isBlank c = true) :
      ReadsUpTo rest last last blanks []
  | token {previous : Option Token} {blanks front : List Char} {lexeme : Lexeme} {token : Token}
      {tokens : List Token} (hb : ∀ c ∈ blanks, isBlank c = true)
      (hlexeme : lexeme.Denotes previous (front ++ rest) token)
      (hfront : ReadsUpTo rest last (some token) front tokens) :
      ReadsUpTo rest last previous (blanks ++ (lexeme.chars ++ front)) (token :: tokens)

/-! ## Without what follows -/

theorem SignsLiteral.append {previous : Option Token} {front : List Char}
    (h : SignsLiteral previous front) (rest : List Char) : SignsLiteral previous (front ++ rest) := by
  obtain ⟨hprevious, c, hc, hnumeric⟩ := h
  refine ⟨hprevious, c, ?_, hnumeric⟩
  rw [List.head?_append, hc]
  rfl

theorem Lexeme.Denotes.of_append {previous : Option Token} {front rest : List Char} {lexeme : Lexeme}
    {token : Token} (h : lexeme.Denotes previous (front ++ rest) token) :
    lexeme.Denotes previous front token := by
  cases h with
  | symbol hsymbol hsign => exact .symbol hsymbol fun hpm hs => hsign hpm (hs.append rest)
  | literal hrun hend hsign =>
    refine .literal hrun ?_ ?_
    · intro c hc
      refine hend c ?_
      rw [List.head?_append, hc]
      rfl
    · intro hne
      obtain ⟨hprevious, c, hc, hnumeric⟩ := hsign hne
      obtain ⟨d, run, rfl, -⟩ := hrun.exists_cons
      exact ⟨hprevious, c, hc, hnumeric⟩

theorem Lexeme.Denotes.isNumeric_head? {previous : Option Token} {rest : List Char}
    {lexeme : Lexeme} {token : Token} (h : lexeme.Denotes previous rest token) {c d : Char}
    (hc : lexeme.chars.getLast? = some c) (hd : rest.head? = some d) (hnumeric : isNumeric c = true) :
    isNumeric d = false := by
  cases h with
  | symbol hsymbol hsign =>
    simp only [Lexeme.chars, List.getLast?_singleton, Option.some.injEq] at hc
    rw [← hc, hsymbol.isNumeric_eq] at hnumeric
    cases hnumeric
  | literal hrun hend hsign => exact hend d hd

namespace ReadsUpTo

variable {rest front : List Char} {last previous : Option Token} {tokens : List Token}

theorem reads (h : ReadsUpTo rest last previous front tokens) : Reads previous front tokens := by
  induction h with
  | blanks hb => exact .blanks hb
  | token hb hlexeme hfront ih => exact .token hb hlexeme.of_append ih

theorem lastOr_eq (h : ReadsUpTo rest last previous front tokens) : lastOr previous tokens = last := by
  induction h with
  | blanks hb => exact lastOr_nil last
  | token hb hlexeme hfront ih => rw [lastOr_cons, ih]

/-- A run of digits and points is not cut. -/
theorem isNumeric_head? (h : ReadsUpTo rest last previous front tokens) {c d : Char}
    (hc : front.getLast? = some c) (hd : rest.head? = some d) (hnumeric : isNumeric c = true) :
    isNumeric d = false := by
  induction h with
  | blanks hb =>
    have hblank := hb c (List.mem_of_getLast? hc)
    rw [isBlank_of_isNumeric hnumeric] at hblank
    cases hblank
  | @token previous blanks front lexeme token tokens hb hlexeme hfront ih =>
    rcases List.eq_nil_or_concat front with rfl | ⟨front', e, rfl⟩
    · obtain ⟨e, chars, hchars, -⟩ := Lexeme.split_of_denotes hlexeme
      rw [List.append_nil, List.getLast?_append, hchars, List.getLast?_cons] at hc
      exact hlexeme.isNumeric_head? (by rw [hchars, List.getLast?_cons]; exact hc) hd hnumeric
    · simp only [List.getLast?_append, List.concat_eq_append] at hc ih
      exact ih hc

/-- A `+` or `-` is not cut off the number it is the sign of. -/
theorem exists_sign (h : ReadsUpTo rest last previous front tokens) {before : List Char} {c : Char}
    (hfront : front = before ++ [c]) (hc : c = '+' ∨ c = '-') :
    ∃ tokens' last', ReadsUpTo (c :: rest) last' previous before tokens' ∧
      ¬ SignsLiteral last' rest := by
  induction h generalizing before with
  | @blanks blanks hb =>
    have hblank := hb c (by simp [hfront])
    rcases hc with rfl | rfl <;> cases hblank
  | @token previous blanks front lexeme token tokens hb hlexeme hfront' ih =>
    rcases List.eq_nil_or_concat front with rfl | ⟨front', d, rfl⟩
    · cases hlexeme with
      | @symbol c' token hsymbol hsign =>
        rw [Lexeme.chars, List.append_nil] at hfront
        obtain ⟨rfl, hcc⟩ := List.append_inj' hfront rfl
        cases hcc
        exact ⟨[], previous, .blanks hb, hsign hc⟩
      | @literal sign? run hrun hend hsign =>
        rcases List.eq_nil_or_concat run with rfl | ⟨run', d, rfl⟩
        · obtain ⟨d, run', hnil, -⟩ := hrun.exists_cons
          cases hnil
        · have hd := hrun.numeric d (by simp)
          simp only [Lexeme.chars, List.append_nil, List.concat_eq_append, ← List.append_assoc] at hfront
          obtain ⟨-, hcd⟩ := List.append_inj' hfront rfl
          cases hcd
          rcases hc with rfl | rfl <;> cases hd
    · rw [List.concat_eq_append] at hfront ih hlexeme
      simp only [← List.append_assoc] at hfront
      obtain ⟨hbefore, hcd⟩ := List.append_inj' hfront rfl
      cases hcd
      obtain ⟨tokens', last', hread, hsign⟩ := ih rfl
      rw [← hbefore, List.append_assoc]
      refine ⟨token :: tokens', last', .token hb ?_ hread, hsign⟩
      simpa using hlexeme

theorem cons_blank {c : Char} (hc : isBlank c = true)
    (h : ReadsUpTo rest last previous front tokens) :
    ReadsUpTo rest last previous (c :: front) tokens := by
  cases h with
  | blanks hb => exact .blanks (List.forall_mem_cons.2 ⟨hc, hb⟩)
  | token hb hlexeme hfront =>
    exact .token (List.forall_mem_cons.2 ⟨hc, hb⟩) hlexeme hfront

end ReadsUpTo

theorem exists_readsUpTo_of_failure {previous : Option Token} {position : Nat} {text : List Char}
    {error : LexicalError} (h : (Scan.after previous position text).failure? = some error) :
    ∃ front c rest last, text = front ++ c :: rest ∧
      ReadsUpTo (c :: rest) last previous front (Scan.after previous position text).tokens ∧
      isBlank c = false ∧
      (Lexeme.split (Token.signMayFollow last) c rest).1.read (position + front.length) =
        .error error := by
  fun_induction Scan.after previous position text with
  | case1 => cases h
  | case2 previous position c rest hc ih =>
    obtain ⟨front, d, rest', last, rfl, hread, hd, herror⟩ := ih h
    refine ⟨c :: front, d, rest', last, rfl, hread.cons_blank hc, hd, ?_⟩
    rw [List.length_cons, ← herror]
    congr 1
    omega
  | case3 previous position c rest hc lexeme token hread ih =>
    obtain ⟨front, d, rest', last, hrest, hfront, hd, herror⟩ := ih h
    have hlexeme := Lexeme.denotes_of_read hread
    have hchars := Lexeme.chars_split_append (Token.signMayFollow previous) c rest
    rw [hrest] at hlexeme hchars
    have hup := @ReadsUpTo.token (d :: rest') last previous [] _ _ _ _ (by simp) hlexeme hfront
    refine ⟨lexeme.chars ++ front, d, rest', last, ?_, hup, hd, ?_⟩
    · rw [List.append_assoc, hchars]
    · rw [List.length_append, ← herror, Nat.add_assoc]
  | case4 previous position c rest hc lexeme error' hread =>
    cases h
    exact ⟨[], c, rest, previous, rfl, .blanks (by simp), Bool.eq_false_iff.2 hc, hread⟩

end Calculator
