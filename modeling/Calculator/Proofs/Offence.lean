import Calculator.Proofs.ReadPrefix

/-!
# Offences

A text is no list of tokens if a character in it belongs to no lexeme, or if a run of digits and
points in it is no numeral. What is read of a text holds no such place (`Reads.not_standsBehind`), and
there is at most one that comes first (`Offence.IsFirst.unique`).
-/

namespace Calculator

/-- The characters of which lexemes and the blanks between them are made. -/
def alphabet : List Char :=
  ['0', '1', '2', '3', '4', '5', '6', '7', '8', '9', '.', '+', '-', '*', '/', '(', ')', ' ', '\t',
    '\r', '\n', '\x0c']

/-- The digits and points between two texts, as many as there are on either side. -/
structure IsRun (front run rest : List Char) : Prop where
  nonempty : run ≠ []
  numeric : ∀ c ∈ run, isNumeric c = true
  front : ∀ c, front.getLast? = some c → isNumeric c = false
  rest : ∀ c, rest.head? = some c → isNumeric c = false

inductive Offence where
  | character (c : Char)
  | run (run : List Char)
deriving DecidableEq

namespace Offence

/-- The offence is in the text, right behind `front`. -/
inductive StandsBehind (front : List Char) : Offence → List Char → Prop
  | character {c : Char} {rest : List Char} (hc : c ∉ alphabet) :
      StandsBehind front (character c) (front ++ c :: rest)
  | run {run rest : List Char} (hrun : IsRun front run rest)
      (hbad : (∀ c ∈ run, c.isDigit = false) ∨ 2 ≤ run.count '.') :
      StandsBehind front (Offence.run run) (front ++ (run ++ rest))

structure IsFirst (offence : Offence) (front text : List Char) : Prop where
  stands : offence.StandsBehind front text
  least : ∀ (other : Offence) (front' : List Char), other.StandsBehind front' text →
    front.length ≤ front'.length

end Offence

/-! ## Characters -/

theorem mem_alphabet_of_isDigit {c : Char} (h : c.isDigit = true) : c ∈ alphabet := by
  simp only [Char.isDigit, Bool.and_eq_true, decide_eq_true_eq] at h
  have hlo : 48 ≤ c.toNat := h.1
  have hhi : c.toNat ≤ 57 := h.2
  have hcode : c.toNat ∈ List.range' 48 10 := List.mem_range'.2 ⟨c.toNat - 48, by omega, by omega⟩
  have hall : ∀ n ∈ List.range' 48 10, Char.ofNat n ∈ alphabet := by decide
  rw [← Char.ofNat_toNat c]
  exact hall _ hcode

theorem mem_alphabet_of_isNumeric {c : Char} (h : isNumeric c = true) : c ∈ alphabet := by
  simp only [isNumeric, Bool.or_eq_true, beq_iff_eq] at h
  rcases h with h | rfl
  · exact mem_alphabet_of_isDigit h
  · decide

theorem mem_alphabet_of_isBlank {c : Char} (h : isBlank c = true) : c ∈ alphabet := by
  simp only [isBlank, Bool.or_eq_true, beq_iff_eq, or_assoc] at h
  rcases h with rfl | rfl | rfl | rfl | rfl <;> decide

theorem Symbol.mem_alphabet {c : Char} {token : Token} (h : Symbol c token) : c ∈ alphabet := by
  cases h <;> decide

theorem not_mem_alphabet {c : Char} (hnumeric : isNumeric c = false) (hblank : isBlank c = false)
    (hsymbol : Token.ofSymbol? c = none) : c ∉ alphabet := by
  intro hc
  have hall : alphabet.all (fun d => isNumeric d || isBlank d || (Token.ofSymbol? d).isSome) =
      true := by decide
  have h := List.all_eq_true.1 hall c hc
  simp [hnumeric, hblank, hsymbol] at h

theorem isNumeric_symbol (sign : Sign) : isNumeric sign.symbol = false := by
  cases sign <;> rfl

theorem symbol_mem_alphabet (sign : Sign) : sign.symbol ∈ alphabet := by
  cases sign <;> decide

/-! ## Runs -/

namespace IsRun

variable {front run rest : List Char}

/-- A run is in one of two texts, if it does not go from the one on into the other. -/
theorem append_cases {first second : List Char} (h : IsRun front run rest)
    (htext : first ++ second = front ++ (run ++ rest))
    (hcut : ∀ c d, first.getLast? = some c → second.head? = some d → isNumeric c = true →
      isNumeric d = false) :
    (∃ rest', first = front ++ (run ++ rest') ∧ IsRun front run rest') ∨
      ∃ front', front = first ++ front' ∧ second = front' ++ (run ++ rest) ∧
        IsRun front' run rest := by
  rcases List.append_eq_append_iff.1 htext with ⟨front', rfl, rfl⟩ | ⟨back, rfl, hback⟩
  · refine Or.inr ⟨front', rfl, rfl, h.nonempty, h.numeric, ?_, h.rest⟩
    intro c hc
    exact h.front c (by rw [List.getLast?_append, hc]; rfl)
  · rcases List.append_eq_append_iff.1 hback with ⟨rest', rfl, rfl⟩ | ⟨second', rfl, rfl⟩
    · refine Or.inl ⟨rest', rfl, h.nonempty, h.numeric, h.front, ?_⟩
      intro c hc
      exact h.rest c (by rw [List.head?_append, hc]; rfl)
    · rcases List.eq_nil_or_concat back with rfl | ⟨back', c, rfl⟩
      · exact Or.inr ⟨[], by simp, by simp, h.nonempty, h.numeric, by simp, h.rest⟩
      · cases second' with
        | nil => exact Or.inl ⟨[], by simp, h.nonempty, h.numeric, h.front, by simp⟩
        | cons d second' =>
          have hd := hcut c d (by simp) rfl (h.numeric c (by simp))
          rw [h.numeric d (by simp)] at hd
          cases hd

theorem exists_isNumeric {text : List Char} (h : IsRun front run rest)
    (htext : text = front ++ (run ++ rest)) : ∃ c ∈ text, isNumeric c = true := by
  obtain ⟨c, hc⟩ := List.exists_mem_of_ne_nil run h.nonempty
  exact ⟨c, by simp [htext, hc], h.numeric c hc⟩

/-- All of a text of digits and points is one run. -/
theorem eq_of_isNumeric {text : List Char} (h : IsRun front run rest)
    (htext : text = front ++ (run ++ rest)) (hnumeric : ∀ c ∈ text, isNumeric c = true) :
    run = text := by
  rcases List.eq_nil_or_concat front with rfl | ⟨front', c, rfl⟩
  · cases rest with
    | nil => simp [htext]
    | cons c rest =>
      have hc := h.rest c rfl
      rw [hnumeric c (by simp [htext])] at hc
      cases hc
  · have hc := h.front c (by simp)
    rw [hnumeric c (by simp [htext])] at hc
    cases hc

end IsRun

/-! ## What is read holds no offence -/

theorem Lexeme.Denotes.mem_alphabet {previous : Option Token} {rest : List Char} {lexeme : Lexeme}
    {token : Token} (h : lexeme.Denotes previous rest token) {c : Char} (hc : c ∈ lexeme.chars) :
    c ∈ alphabet := by
  cases h with
  | symbol hsymbol hsign =>
    rw [List.mem_singleton.1 hc]
    exact hsymbol.mem_alphabet
  | @literal sign? run hrun hend hsign =>
    rcases List.mem_append.1 hc with hc | hc
    · cases sign? with
      | none => cases hc
      | some sign =>
        rw [List.mem_singleton.1 hc]
        exact symbol_mem_alphabet sign
    · exact mem_alphabet_of_isNumeric (hrun.numeric c hc)

theorem Lexeme.Denotes.isNumeral_of_isRun {previous : Option Token} {rest : List Char}
    {lexeme : Lexeme} {token : Token} (h : lexeme.Denotes previous rest token)
    {front run back : List Char} (hrun : IsRun front run back)
    (htext : lexeme.chars = front ++ (run ++ back)) : IsNumeral run := by
  cases h with
  | @symbol c token hsymbol hsign =>
    obtain ⟨d, hd, hnumeric⟩ := hrun.exists_isNumeric htext
    rw [List.mem_singleton.1 hd, hsymbol.isNumeric_eq] at hnumeric
    cases hnumeric
  | @literal sign? numeral hnumeral hend hsign =>
    have hsymbols : ∀ c ∈ (sign?.map Sign.symbol).toList, isNumeric c = false := by
      intro c hc
      cases sign? with
      | none => cases hc
      | some sign =>
        rw [List.mem_singleton.1 hc]
        exact isNumeric_symbol sign
    have hcut : ∀ c d, (sign?.map Sign.symbol).toList.getLast? = some c → numeral.head? = some d →
        isNumeric c = true → isNumeric d = false := by
      intro c d hc _ hnumeric
      rw [hsymbols c (List.mem_of_getLast? hc)] at hnumeric
      cases hnumeric
    rcases hrun.append_cases htext hcut with ⟨back', hfirst, hin⟩ | ⟨front', -, hsecond, hin⟩
    · obtain ⟨c, hc, hnumeric⟩ := hin.exists_isNumeric hfirst
      rw [hsymbols c hc] at hnumeric
      cases hnumeric
    · rw [hin.eq_of_isNumeric hsecond hnumeral.numeric]
      exact hnumeral

theorem Reads.mem_alphabet {previous : Option Token} {text : List Char} {tokens : List Token}
    (h : Reads previous text tokens) : ∀ c ∈ text, c ∈ alphabet := by
  induction h with
  | blanks hb => exact fun c hc => mem_alphabet_of_isBlank (hb c hc)
  | token hb hlexeme hrest ih =>
    intro c hc
    rcases List.mem_append.1 hc with hc | hc
    · exact mem_alphabet_of_isBlank (hb c hc)
    · rcases List.mem_append.1 hc with hc | hc
      · exact hlexeme.mem_alphabet hc
      · exact ih c hc

theorem not_isRun_of_isBlank {blanks front run rest : List Char}
    (hb : ∀ c ∈ blanks, isBlank c = true) (htext : blanks = front ++ (run ++ rest)) :
    ¬ IsRun front run rest := by
  intro hrun
  obtain ⟨c, hc, hnumeric⟩ := hrun.exists_isNumeric htext
  have hblank := hb c hc
  rw [isBlank_of_isNumeric hnumeric] at hblank
  cases hblank

theorem Reads.isNumeral_of_isRun {previous : Option Token} {text : List Char} {tokens : List Token}
    (h : Reads previous text tokens) {front run rest : List Char} (hrun : IsRun front run rest)
    (htext : text = front ++ (run ++ rest)) : IsNumeral run := by
  induction h generalizing front with
  | blanks hb => exact absurd hrun (not_isRun_of_isBlank hb htext)
  | @token previous blanks behind lexeme token tokens hb hlexeme hrest ih =>
    have hcut : ∀ c d, blanks.getLast? = some c → (lexeme.chars ++ behind).head? = some d →
        isNumeric c = true → isNumeric d = false := by
      intro c d hc _ hnumeric
      have hblank := hb c (List.mem_of_getLast? hc)
      rw [isBlank_of_isNumeric hnumeric] at hblank
      cases hblank
    rcases hrun.append_cases htext hcut with ⟨rest', hin, hrun'⟩ | ⟨front', -, hin, hrun'⟩
    · exact absurd hrun' (not_isRun_of_isBlank hb hin)
    · rcases hrun'.append_cases hin (fun c d hc hd => hlexeme.isNumeric_head? hc hd) with
        ⟨rest', hin', hrun''⟩ | ⟨front'', -, hin', hrun''⟩
      · exact hlexeme.isNumeral_of_isRun hrun'' hin'
      · exact ih hrun'' hin'

theorem Reads.not_standsBehind {previous : Option Token} {text front : List Char}
    {tokens : List Token} (h : Reads previous text tokens) (offence : Offence) :
    ¬ offence.StandsBehind front text := by
  intro hstands
  cases hstands with
  | @character c rest hc => exact hc (h.mem_alphabet c (by simp))
  | @run run rest hrun hbad =>
    obtain ⟨-, ⟨c, hc, hdigit⟩, hpoints⟩ := h.isNumeral_of_isRun hrun rfl
    rcases hbad with hbad | hbad
    · rw [hbad c hc] at hdigit
      cases hdigit
    · omega

/-- Every offence in a text is behind what is read of it. -/
theorem ReadsUpTo.length_le {front rest : List Char} {last : Option Token} {tokens : List Token}
    (h : ReadsUpTo rest last none front tokens) {offence : Offence} {front' : List Char}
    (hoffence : offence.StandsBehind front' (front ++ rest)) : front.length ≤ front'.length := by
  have hno : ∀ offence : Offence, ¬ offence.StandsBehind front' front := h.reads.not_standsBehind
  generalize htext : front ++ rest = text at hoffence
  cases hoffence with
  | @character c back hc =>
    rcases List.append_eq_append_iff.1 htext with ⟨more, rfl, -⟩ | ⟨more, rfl, hmore⟩
    · simp
    · cases more with
      | nil => simp
      | cons d more =>
        cases hmore
        exact absurd (.character hc) (hno _)
  | @run run back hrun hbad =>
    rcases hrun.append_cases htext (fun c d hc hd => h.isNumeric_head? hc hd) with
      ⟨back', rfl, hrun'⟩ | ⟨more, rfl, -, -⟩
    · exact absurd (.run hrun' hbad) (hno _)
    · simp

/-! ## Where the first offence is -/

namespace Offence

variable {offence : Offence} {front text : List Char}

theorem StandsBehind.lt_length {c : Char} {front' rest : List Char}
    (h : offence.StandsBehind front' (front ++ c :: rest)) (hle : front.length ≤ front'.length)
    (hc : c ∈ alphabet) (hnumeric : isNumeric c = false) : front.length < front'.length := by
  rcases Nat.lt_or_eq_of_le hle with hlt | hlength
  · exact hlt
  exfalso
  generalize htext : front ++ c :: rest = text at h
  cases h with
  | character hd =>
    obtain ⟨-, heq⟩ := List.append_inj htext hlength
    cases heq
    exact hd hc
  | @run run rest' hrun hbad =>
    obtain ⟨-, heq⟩ := List.append_inj htext hlength
    cases run with
    | nil => exact hrun.nonempty rfl
    | cons d run =>
      cases heq
      rw [hrun.numeric c (by simp)] at hnumeric
      cases hnumeric

/-- At most one offence is behind a front. -/
theorem StandsBehind.unique {front' : List Char} {other : Offence}
    (h : offence.StandsBehind front text) (hother : other.StandsBehind front' text)
    (hlength : front.length = front'.length) : front' = front ∧ other = offence := by
  cases h with
  | @character c rest hc =>
    generalize htext : front ++ c :: rest = text at hother
    cases hother with
    | character hd =>
      obtain ⟨rfl, heq⟩ := List.append_inj htext hlength
      cases heq
      exact ⟨rfl, rfl⟩
    | @run run rest' hrun hbad =>
      obtain ⟨rfl, heq⟩ := List.append_inj htext hlength
      cases run with
      | nil => exact absurd rfl hrun.nonempty
      | cons d run =>
        cases heq
        exact absurd (mem_alphabet_of_isNumeric (hrun.numeric c (by simp))) hc
  | @run run rest hrun hbad =>
    generalize htext : front ++ (run ++ rest) = text at hother
    cases hother with
    | @character c rest' hc =>
      obtain ⟨rfl, heq⟩ := List.append_inj htext hlength
      cases run with
      | nil => exact absurd rfl hrun.nonempty
      | cons d run =>
        cases heq
        exact absurd (mem_alphabet_of_isNumeric (hrun.numeric c (by simp))) hc
    | @run run' rest' hrun' hbad' =>
      obtain ⟨rfl, heq⟩ := List.append_inj htext hlength
      obtain ⟨htake, -⟩ := Lexeme.takeWhile_append_of_end hrun.numeric hrun.rest
      obtain ⟨htake', -⟩ := Lexeme.takeWhile_append_of_end hrun'.numeric hrun'.rest
      rw [heq, htake'] at htake
      rw [htake]
      exact ⟨rfl, rfl⟩

theorem IsFirst.unique (h : offence.IsFirst front text) (other : Offence) (front' : List Char) :
    other.IsFirst front' text ↔ front' = front ∧ other = offence := by
  constructor
  · intro hother
    have hle := h.least other front' hother.stands
    have hge := hother.least offence front h.stands
    exact h.stands.unique hother.stands (by omega)
  · rintro ⟨rfl, rfl⟩
    exact h

end Offence

end Calculator
