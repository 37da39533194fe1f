import Calculator.Proofs.Grammar

/-!
# Texts in parts

If no lexeme goes from one part of a text on into the next, the parts are scanned one after the other
(`Scan.after_append`). Where a part begins only moves the position of its offence (`Scan.after_add`),
and of the token before it matters only whether it admits a sign (`Scan.after_congr`).
-/

namespace Calculator

/-! ## Positions -/

/-- The error, once a text of that length is put in front. -/
def LexicalError.shift (length : Nat) : LexicalError → LexicalError
  | unknownCharacter c position => unknownCharacter c (position + length)
  | malformedNumber fragment position => malformedNumber fragment (position + length)

namespace LexicalError

theorem shift_zero (error : LexicalError) : error.shift 0 = error := by
  cases error <;> rfl

theorem shift_shift (error : LexicalError) (first second : Nat) :
    (error.shift first).shift second = error.shift (first + second) := by
  cases error <;> simp [shift, Nat.add_assoc]

end LexicalError

namespace Lexeme

theorem read_add (position length : Nat) (lexeme : Lexeme) :
    lexeme.read (position + length) = (lexeme.read position).mapError (·.shift length) := by
  cases lexeme with
  | symbol c =>
    simp only [read]
    split <;> rfl
  | literal sign? run =>
    simp only [read]
    split
    · rfl
    · split
      · rfl
      · split <;> rfl

theorem length_split (signed : Bool) (c : Char) (rest : List Char) :
    (split signed c rest).1.chars.length + (split signed c rest).2.length = rest.length + 1 := by
  rw [← List.length_append, chars_split_append, List.length_cons]

theorem position_of_read {position : Nat} {lexeme : Lexeme} {error : LexicalError}
    (h : lexeme.read position = .error error) : error.position = position := by
  cases lexeme with
  | symbol c =>
    simp only [read] at h
    split at h <;> cases h
    rfl
  | literal sign? run =>
    simp only [read] at h
    split at h
    · cases h; rfl
    · split at h
      · cases h; rfl
      · split at h <;> cases h
        rfl

end Lexeme

/-! ## Scans -/

namespace Scan

def mapFailure (f : LexicalError → LexicalError) (scan : Scan) : Scan :=
  { scan with failure? := scan.failure?.map f }

/-- The scan, then what comes behind it, unless it has failed. -/
def andThen (scan next : Scan) : Scan :=
  match scan.failure? with
  | none => ⟨scan.tokens ++ next.tokens, next.failure?⟩
  | some _ => scan

theorem andThen_of_failure {scan : Scan} {error : LexicalError} (h : scan.failure? = some error)
    (next : Scan) : scan.andThen next = scan := by
  simp [andThen, h]

theorem andThen_of_tokens (tokens : List Token) (next : Scan) :
    andThen ⟨tokens, none⟩ next = ⟨tokens ++ next.tokens, next.failure?⟩ := rfl

theorem cons_andThen (token : Token) (scan next : Scan) :
    (cons token scan).andThen next = cons token (scan.andThen next) := by
  obtain ⟨tokens, failure?⟩ := scan
  cases failure? <;> rfl

theorem failure?_andThen {scan : Scan} (h : scan.failure? = none) (next : Scan) :
    (scan.andThen next).failure? = next.failure? := by
  simp [andThen, h]

theorem andThen_mapFailure {scan : Scan} (h : scan.failure? = none)
    (f : LexicalError → LexicalError) (next : Scan) :
    scan.andThen (next.mapFailure f) = (scan.andThen next).mapFailure f := by
  simp [andThen, h, mapFailure]

theorem mapFailure_congr {scan : Scan} {f g : LexicalError → LexicalError}
    (h : ∀ error, scan.failure? = some error → f error = g error) :
    scan.mapFailure f = scan.mapFailure g := by
  unfold mapFailure
  rw [Option.map_congr h]

theorem mapFailure_eq_self {scan : Scan} {f : LexicalError → LexicalError}
    (h : ∀ error, scan.failure? = some error → f error = error) : scan.mapFailure f = scan := by
  rw [mapFailure_congr h]
  simp [mapFailure]

theorem after_add (previous : Option Token) (position length : Nat) (text : List Char) :
    after previous (position + length) text = (after previous position text).mapFailure (·.shift length) := by
  fun_induction after previous position text with
  | case1 => rw [after_nil]; rfl
  | case2 previous position c rest hc ih =>
    rw [after_blank _ _ _ hc, ← ih]
    congr 1
    omega
  | case3 previous position c rest hc lexeme token hread ih =>
    have hread' : lexeme.read (position + length) = .ok token := by rw [Lexeme.read_add, hread]; rfl
    have hsplit : Lexeme.split (Token.signMayFollow previous) c rest =
      (lexeme, (Lexeme.split (Token.signMayFollow previous) c rest).2) := rfl
    rw [after_token (Bool.eq_false_iff.2 hc) hsplit hread', Nat.add_right_comm, ih]
    rfl
  | case4 previous position c rest hc lexeme error hread =>
    have hread' : lexeme.read (position + length) = .error (error.shift length) := by
      rw [Lexeme.read_add, hread]; rfl
    rw [after_error (Bool.eq_false_iff.2 hc) rfl hread']
    rfl

theorem after_congr {previous previous' : Option Token}
    (h : Token.signMayFollow previous = Token.signMayFollow previous') (position : Nat)
    (text : List Char) : after previous position text = after previous' position text := by
  induction text generalizing position with
  | nil => rw [after_nil, after_nil]
  | cons c rest ih =>
    rw [after, after, h]
    split
    · exact ih _
    · rfl

theorem position_of_failure {previous : Option Token} {position : Nat} {text : List Char}
    {error : LexicalError} (h : (after previous position text).failure? = some error) :
    position ≤ error.position ∧ error.position < position + text.length := by
  fun_induction after previous position text with
  | case1 => cases h
  | case2 previous position c rest hc ih =>
    have := ih h
    simp only [List.length_cons]
    omega
  | case3 previous position c rest hc lexeme token hread ih =>
    have := ih h
    have hlength : lexeme.chars.length + _ = rest.length + 1 := Lexeme.length_split ..
    simp only [List.length_cons]
    omega
  | case4 previous position c rest hc lexeme error' hread =>
    cases h
    rw [Lexeme.position_of_read hread, List.length_cons]
    omega

theorem result_mapFailure (f : LexicalError → LexicalError) (scan : Scan) :
    (scan.mapFailure f).result = scan.result.mapError f := by
  obtain ⟨tokens, failure?⟩ := scan
  cases failure? <;> rfl

end Scan

/-! ## Parts -/

/-- No lexeme goes from the first text on into the second: no run of digits and points, and no sign
with its number. -/
def Parted (front rest : List Char) : Prop :=
  ∀ c d, front.getLast? = some c → rest.head? = some d →
    ¬ ((isNumeric c = true ∨ c = '+' ∨ c = '-') ∧ isNumeric d = true)

theorem Parted.of_suffix {front back rest : List Char} (h : Parted front rest)
    (hback : back <:+ front) : Parted back rest := by
  obtain ⟨before, rfl⟩ := hback
  intro c d hc
  exact h c d (by rw [List.getLast?_append, hc]; rfl)

theorem parted_of_head? {front rest : List Char}
    (h : ∀ d, rest.head? = some d → isNumeric d = false) : Parted front rest := by
  intro c d _ hd hboth
  rw [h d hd] at hboth
  cases hboth.2

theorem parted_cons (front : List Char) {c : Char} (hc : isNumeric c = false) (rest : List Char) :
    Parted front (c :: rest) := by
  refine parted_of_head? fun d hd => ?_
  cases hd
  exact hc

namespace Lexeme

theorem takeWhile_append_of_parted {front rest : List Char} (hne : front ≠ [])
    (h : Parted front rest) :
    (front ++ rest).takeWhile isNumeric = front.takeWhile isNumeric ∧
      (front ++ rest).dropWhile isNumeric = front.dropWhile isNumeric ++ rest := by
  induction front with
  | nil => exact absurd rfl hne
  | cons c front ih =>
    cases hc : isNumeric c with
    | false => simp [hc]
    | true =>
      cases front with
      | nil =>
        have hend : ∀ d, rest.head? = some d → isNumeric d = false := by
          intro d hd
          exact Bool.eq_false_iff.2 fun hnumeric => h c d rfl hd ⟨Or.inl hc, hnumeric⟩
        have hrun : ∀ d ∈ [c], isNumeric d = true := by simpa using hc
        obtain ⟨htake, hdrop⟩ := takeWhile_append_of_end hrun hend
        rw [htake, hdrop]
        simp [hc]
      | cons d front =>
        obtain ⟨htake, hdrop⟩ := ih (by simp) (h.of_suffix (List.suffix_cons ..))
        rw [List.cons_append, List.takeWhile_cons, List.dropWhile_cons, htake, hdrop]
        simp [hc]

theorem split_append (signed : Bool) {c : Char} {front rest : List Char}
    (h : Parted (c :: front) rest) :
    split signed c (front ++ rest) =
      ((split signed c front).1, (split signed c front).2 ++ rest) := by
  have hview := split_view signed c front
  generalize split signed c front = parts at hview ⊢
  cases hview with
  | run hc =>
    obtain ⟨htake, hdrop⟩ := takeWhile_append_of_parted (List.cons_ne_nil c front) h
    simp only [List.cons_append, List.takeWhile_cons, List.dropWhile_cons, hc, ite_true,
      List.cons.injEq, true_and] at htake hdrop
    rw [split_literal _ _ hc, htake, hdrop]
  | signed hsign hnext =>
    obtain ⟨rfl, hhead⟩ := Bool.and_eq_true_iff.1 hnext
    obtain ⟨d, hd, -⟩ := (Option.any_eq_true ..).1 hhead
    obtain ⟨front', rfl⟩ := List.head?_eq_some_iff.1 hd
    obtain ⟨htake, hdrop⟩ := takeWhile_append_of_parted (List.cons_ne_nil d front')
      (h.of_suffix (List.suffix_cons ..))
    have hc : isNumeric c = false := by
      rcases ofSymbol?_ne_none_iff.1 (Option.ne_none_iff_exists'.2 ⟨_, hsign⟩) with rfl | rfl <;> rfl
    have hhead' : (d :: front' ++ rest).head?.any isNumeric = true := hhead
    rw [split_signed hc hsign hhead', htake, hdrop]
  | symbol hc hno =>
    refine split_symbol hc fun hsign => ?_
    cases front with
    | cons d front => exact hno hsign
    | nil =>
      -- a sign right before the other part
      have hpm := ofSymbol?_ne_none_iff.1 hsign
      refine Bool.eq_false_iff.2 fun hnext => ?_
      obtain ⟨d, hd, hnumeric⟩ := (Option.any_eq_true ..).1 (Bool.and_eq_true_iff.1 hnext).2
      exact h c d rfl hd ⟨Or.inr hpm, hnumeric⟩

end Lexeme

/-- **Parts.** The parts of a text are scanned one after the other. -/
theorem Scan.after_append (previous : Option Token) (position : Nat) {front rest : List Char}
    (h : Parted front rest) :
    after previous position (front ++ rest) =
      (after previous position front).andThen
        (after (lastOr previous (after previous position front).tokens) (position + front.length)
          rest) := by
  fun_induction after previous position front with
  | case1 previous position => rw [lastOr_nil]; rfl
  | case2 previous position c front hc ih =>
    rw [List.cons_append, after_blank _ _ _ hc, ih (h.of_suffix (List.suffix_cons ..)),
      List.length_cons, Nat.add_assoc, Nat.add_comm 1]
  | case3 previous position c front hc lexeme token hread ih =>
    have hlength : lexeme.chars.length + _ = front.length + 1 := Lexeme.length_split ..
    -- what the lexeme leaves of the front is still parted from the rest
    have hbehind := h.of_suffix
      ⟨_, Lexeme.chars_split_append (Token.signMayFollow previous) c front⟩
    rw [List.cons_append,
      after_token (Bool.eq_false_iff.2 hc) (Lexeme.split_append _ h) hread, ih hbehind,
      cons_andThen, List.length_cons, ← hlength, ← Nat.add_assoc]
    congr 2
    exact congrArg (after · _ _) (lastOr_cons ..).symm
  | case4 previous position c front hc lexeme error hread =>
    rw [List.cons_append, after_error (Bool.eq_false_iff.2 hc) (Lexeme.split_append _ h) hread]
    rfl

theorem Reads.congr {previous previous' : Option Token} {text : List Char} {tokens : List Token}
    (h : Reads previous text tokens)
    (hprevious : Token.signMayFollow previous = Token.signMayFollow previous') :
    Reads previous' text tokens := by
  rw [reads_iff_after 0] at h ⊢
  rw [← Scan.after_congr hprevious, h]

theorem Reads.append {previous : Option Token} {front rest : List Char} {tokens others : List Token}
    (hfront : Reads previous front tokens) (hrest : Reads (lastOr previous tokens) rest others)
    (h : Parted front rest) : Reads previous (front ++ rest) (tokens ++ others) := by
  rw [reads_iff_after 0, Scan.after_append _ _ h, after_of_reads hfront, Scan.andThen_of_tokens,
    after_of_reads hrest]

end Calculator
