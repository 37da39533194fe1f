import Calculator.Proofs.Offence

/-!
# The first offence

A scan fails at the first offence of a text. `tokenize_eq_error_iff`: the error says what the offence
is. A run of digits and points is reported up to where it goes wrong, and with its sign if it has one.
`exists_tokenize_eq_ok_iff`: a text without offence has tokens.
-/

namespace Calculator

/-- What is read before the sign at the end of `front` makes it the sign of a number behind it. -/
structure EndsInSign (front before : List Char) (sign : Sign) : Prop where
  front_eq : front = before ++ [sign.symbol]
  position : ∃ tokens, tokenize (String.ofList before) = .ok tokens ∧
    (tokens = [] ∨ (∃ op, tokens.getLast? = some (.operator op)) ∨
      tokens.getLast? = some .opening)

/-- No digit follows the point that the run begins with. -/
def IsBarePoint (run : List Char) : Prop :=
  ∃ rest, run = '.' :: rest ∧ ∀ c, rest.head? = some c → c.isDigit = false

/-- The part goes up to the second point of the run. -/
structure IsThroughSecondPoint (part run : List Char) : Prop where
  front : part <+: run
  last : part.getLast? = some '.'
  points : part.count '.' = 2

/-- How an offence behind `front` is reported. -/
inductive Offence.Reported (front : List Char) : Offence → LexicalError → Prop
  | character {c : Char} : Reported front (character c) (.unknownCharacter c front.length)
  | barePoint {run : List Char} (hsign : ∀ before sign, ¬ EndsInSign front before sign)
      (hrun : IsBarePoint run) : Reported front (.run run) (.unknownCharacter '.' front.length)
  | secondPoint {run part : List Char} (hsign : ∀ before sign, ¬ EndsInSign front before sign)
      (hrun : ¬ IsBarePoint run) (hpart : IsThroughSecondPoint part run) :
      Reported front (.run run) (.malformedNumber (String.ofList part) front.length)
  | signedSecondPoint {before run part : List Char} {sign : Sign}
      (hsign : EndsInSign front before sign) (hpart : IsThroughSecondPoint part run) :
      Reported front (.run run)
        (.malformedNumber (String.ofList (sign.symbol :: part)) before.length)
  | signedPoint {before : List Char} {sign : Sign} (hsign : EndsInSign front before sign) :
      Reported front (.run ['.'])
        (.malformedNumber (String.ofList [sign.symbol, '.']) before.length)

/-! ## Runs that are read with an error -/

namespace Lexeme

theorem beginsWithBarePoint_iff {run : List Char} :
    beginsWithBarePoint run = true ↔ IsBarePoint run := by
  unfold beginsWithBarePoint
  split
  · rename_i rest
    cases rest <;> simp [IsBarePoint]
  · rename_i hne
    simp only [Bool.false_eq_true, IsBarePoint, false_iff]
    rintro ⟨rest, rfl, -⟩
    exact hne rest rfl

theorem exists_dropWhile_point {run : List Char} (h : '.' ∈ run) :
    ∃ rest, run.dropWhile (· != '.') = '.' :: rest := by
  induction run with
  | nil => cases h
  | cons c run ih =>
    by_cases hc : c = '.'
    · exact ⟨run, by simp [hc]⟩
    · have hrun := (List.mem_cons.1 h).resolve_left fun heq => hc heq.symm
      simpa [hc] using ih hrun

theorem count_takeWhile_point (run : List Char) : (run.takeWhile (· != '.')).count '.' = 0 := by
  rw [List.count_eq_zero]
  intro h
  have hne := List.all_eq_true.1 (List.all_takeWhile (l := run) (p := (· != '.'))) '.' h
  cases hne

theorem isThroughSecondPoint {run part : List Char} (h : throughSecondPoint? run = some part) :
    IsThroughSecondPoint part run := by
  unfold throughSecondPoint? at h
  dsimp only at h
  split at h
  · rename_i hpoint
    cases h
    have hpoint' := List.contains_iff_mem.1 hpoint
    obtain ⟨fraction, hfraction⟩ := exists_dropWhile_point
      ((List.dropWhile_sublist _).subset ((List.drop_sublist 1 _).subset hpoint'))
    rw [hfraction, List.drop_succ_cons, List.drop_zero] at hpoint' ⊢
    obtain ⟨rest, hrest⟩ := exists_dropWhile_point hpoint'
    refine ⟨⟨rest, ?_⟩, List.getLast?_concat, ?_⟩
    · have htail := List.takeWhile_append_dropWhile (p := (· != '.')) (l := fraction)
      have hwhole := List.takeWhile_append_dropWhile (p := (· != '.')) (l := run)
      rw [hrest] at htail
      rw [hfraction, ← htail] at hwhole
      simpa using hwhole
    · simp [count_takeWhile_point]
  · cases h

theorem eq_point {run : List Char} (hrun : ∀ c ∈ run, isNumeric c = true) (hne : run ≠ [])
    (hdigit : ¬ run.any Char.isDigit = true) (hpoints : run.count '.' ≤ 1) : run = ['.'] := by
  have hall : ∀ c ∈ run, c = '.' := by
    intro c hc
    have hnumeric := hrun c hc
    simp only [isNumeric, Bool.or_eq_true, beq_iff_eq] at hnumeric
    exact hnumeric.resolve_left fun h => hdigit (List.any_eq_true.2 ⟨c, hc, h⟩)
  rw [List.eq_replicate_of_mem hall, List.count_replicate_self] at hpoints
  have hlength := List.length_pos_iff.2 hne
  have hone : run.length = 1 := by omega
  rw [List.eq_replicate_of_mem hall, hone]
  rfl

/-- A run that is read with an error, and what the error says. -/
theorem error_of_read_literal {position : Nat} {sign? : Option Sign} {run : List Char}
    {error : LexicalError} (hrun : ∀ c ∈ run, isNumeric c = true) (hne : run ≠ [])
    (h : (literal sign? run).read position = .error error) :
    (sign? = none ∧ IsBarePoint run ∧ error = .unknownCharacter '.' position) ∨
      (∃ part, (sign? = none → ¬ IsBarePoint run) ∧ IsThroughSecondPoint part run ∧
        error = .malformedNumber (String.ofList (literal sign? part).chars) position) ∨
      ∃ sign, sign? = some sign ∧ run = ['.'] ∧
        error = .malformedNumber (String.ofList [sign.symbol, '.']) position := by
  simp only [read] at h
  split at h
  · rename_i hbare
    obtain ⟨hsign, hbare⟩ := Bool.and_eq_true_iff.1 hbare
    cases h
    exact Or.inl ⟨Option.isNone_iff_eq_none.1 hsign, beginsWithBarePoint_iff.1 hbare, rfl⟩
  · rename_i hbare
    have hbare' : sign? = none → ¬ IsBarePoint run := by
      intro hsign hpoint
      exact hbare (by rw [hsign, beginsWithBarePoint_iff.2 hpoint]; rfl)
    split at h
    · rename_i part hpart
      cases h
      exact Or.inr (Or.inl ⟨part, hbare', isThroughSecondPoint hpart, rfl⟩)
    · rename_i hpart
      split at h
      · cases h
      · rename_i hdigit
        cases h
        have hrun' := eq_point hrun hne hdigit (throughSecondPoint?_eq_none_iff.1 hpart)
        cases sign? with
        | none => exact absurd ⟨[], hrun', by simp⟩ (hbare' rfl)
        | some sign => exact Or.inr (Or.inr ⟨sign, rfl, hrun', by rw [hrun']; rfl⟩)

/-- A run that is read with an error is no numeral. -/
theorem bad_of_read_literal {position : Nat} {sign? : Option Sign} {run : List Char}
    {error : LexicalError} (hrun : ∀ c ∈ run, isNumeric c = true)
    (h : (literal sign? run).read position = .error error) :
    (∀ c ∈ run, c.isDigit = false) ∨ 2 ≤ run.count '.' := by
  by_cases hdigit : ∃ c ∈ run, c.isDigit = true
  · by_cases hpoints : run.count '.' ≤ 1
    · have hok := (read_literal_eq_ok_iff position sign? hrun).2 ⟨⟨hrun, hdigit, hpoints⟩, rfl⟩
      rw [h] at hok
      cases hok
    · exact Or.inr (by omega)
  · exact Or.inl fun c hc => Bool.eq_false_iff.2 fun h => hdigit ⟨c, hc, h⟩

end Lexeme

/-! ## Where a scan fails -/

namespace ReadsUpTo

variable {front rest : List Char} {last : Option Token} {tokens : List Token}

theorem tokenize_eq (h : ReadsUpTo rest last none front tokens) :
    tokenize (String.ofList front) = .ok tokens :=
  tokenize_of_reads (by rw [String.toList_ofList]; exact h.reads)

/-- A sign in front of digits and points is that of a number, where it may be. -/
theorem not_endsInSign (h : ReadsUpTo rest last none front tokens)
    (hrest : ∃ c, rest.head? = some c ∧ isNumeric c = true) (before : List Char) (sign : Sign) :
    ¬ EndsInSign front before sign := by
  intro hsign
  obtain ⟨tokens', last', hread, hno⟩ := h.exists_sign hsign.front_eq sign.symbol_eq
  obtain ⟨tokens'', htokens, hposition⟩ := hsign.position
  rw [hread.tokenize_eq] at htokens
  cases htokens
  have hlast : tokens'.getLast? = last' := hread.lastOr_eq
  refine hno ⟨?_, hrest⟩
  rcases hposition with rfl | hposition
  · exact Or.inl hlast.symm
  · rw [← hlast]
    exact Or.inr hposition

theorem endsInSign (h : ReadsUpTo rest last none front tokens) (sign : Sign)
    (hsign : Token.signMayFollow last = true) : EndsInSign (front ++ [sign.symbol]) front sign := by
  refine ⟨rfl, tokens, h.tokenize_eq, ?_⟩
  have hlast : tokens.getLast? = last := h.lastOr_eq
  rw [hlast]
  rcases signMayFollow_iff.1 hsign with hnone | hposition
  · exact Or.inl (List.getLast?_eq_none_iff.1 (hlast.trans hnone))
  · exact Or.inr hposition

theorem exists_isFirst_run {c : Char} {error : LexicalError}
    (h : ReadsUpTo (c :: rest) last none front tokens) (hc : isNumeric c = true)
    (herror : (Lexeme.literal none (c :: rest.takeWhile isNumeric)).read front.length =
      .error error) :
    ∃ front' offence, Offence.IsFirst offence front' (front ++ c :: rest) ∧
      offence.Reported front' error := by
  have hrun : ∀ d ∈ c :: rest.takeWhile isNumeric, isNumeric d = true :=
    List.forall_mem_cons.2 ⟨hc, Lexeme.takeWhile_isNumeric rest⟩
  have hisRun : IsRun front (c :: rest.takeWhile isNumeric) (rest.dropWhile isNumeric) := by
    refine ⟨by simp, hrun, ?_, Lexeme.dropWhile_isNumeric rest⟩
    intro d hd
    cases hnumeric : isNumeric d with
    | false => rfl
    | true =>
      have hcut := h.isNumeric_head? hd rfl hnumeric
      rw [hc] at hcut
      cases hcut
  have hstands := Offence.StandsBehind.run hisRun (Lexeme.bad_of_read_literal hrun herror)
  rw [List.cons_append, List.takeWhile_append_dropWhile] at hstands
  refine ⟨front, _, ⟨hstands, fun other front' => h.length_le⟩, ?_⟩
  have hsign := h.not_endsInSign ⟨c, rfl, hc⟩
  rcases Lexeme.error_of_read_literal hrun (by simp) herror with
    ⟨-, hbare, rfl⟩ | ⟨part, hbare, hpart, rfl⟩ | ⟨sign, hnone, -⟩
  · exact .barePoint hsign hbare
  · exact .secondPoint hsign (hbare rfl) hpart
  · cases hnone

theorem exists_isFirst_signed {sign : Sign} {error : LexicalError}
    (h : ReadsUpTo (sign.symbol :: rest) last none front tokens)
    (hfollow : Token.signMayFollow last = true) (hhead : rest.head?.any isNumeric = true)
    (herror : (Lexeme.literal (some sign) (rest.takeWhile isNumeric)).read front.length =
      .error error) :
    ∃ front' offence, Offence.IsFirst offence front' (front ++ sign.symbol :: rest) ∧
      offence.Reported front' error := by
  have hrun := Lexeme.takeWhile_isNumeric rest
  have hne := Lexeme.takeWhile_isNumeric_ne_nil hhead
  have hisRun : IsRun (front ++ [sign.symbol]) (rest.takeWhile isNumeric)
      (rest.dropWhile isNumeric) := by
    refine ⟨hne, hrun, ?_, Lexeme.dropWhile_isNumeric rest⟩
    intro d hd
    rw [List.getLast?_concat, Option.some.injEq] at hd
    rw [← hd, isNumeric_symbol]
  have hstands := Offence.StandsBehind.run hisRun (Lexeme.bad_of_read_literal hrun herror)
  rw [List.takeWhile_append_dropWhile, List.append_assoc, List.singleton_append] at hstands
  refine ⟨front ++ [sign.symbol], _, ⟨hstands, ?_⟩, ?_⟩
  · -- The sign is no offence, so that the first one is not right where the lexeme begins.
    intro other front' hother
    have hlt := hother.lt_length (h.length_le hother) (symbol_mem_alphabet sign)
      (isNumeric_symbol sign)
    simp only [List.length_append, List.length_singleton]
    omega
  · have hsign := h.endsInSign sign hfollow
    rcases Lexeme.error_of_read_literal hrun hne herror with
      ⟨hnone, -⟩ | ⟨part, -, hpart, rfl⟩ | ⟨sign', hsome, hpoint, rfl⟩
    · cases hnone
    · exact .signedSecondPoint hsign hpart
    · cases hsome
      rw [hpoint]
      exact .signedPoint hsign

/-- The lexeme that is read with an error is the first offence, or that behind its sign. -/
theorem exists_isFirst {c : Char} {error : LexicalError}
    (h : ReadsUpTo (c :: rest) last none front tokens) (hblank : isBlank c = false)
    (herror : (Lexeme.split (Token.signMayFollow last) c rest).1.read front.length = .error error) :
    ∃ front' offence, Offence.IsFirst offence front' (front ++ c :: rest) ∧
      offence.Reported front' error := by
  have hview := Lexeme.split_view (Token.signMayFollow last) c rest
  generalize Lexeme.split (Token.signMayFollow last) c rest = parts at herror hview
  cases hview with
  | run hc => exact h.exists_isFirst_run hc herror
  | signed hc hnext =>
    obtain ⟨hfollow, hhead⟩ := Bool.and_eq_true_iff.1 hnext
    obtain rfl := Sign.ofSymbol?_eq_some_iff.1 hc
    exact h.exists_isFirst_signed hfollow hhead herror
  | symbol hc hsign =>
    cases htoken : Token.ofSymbol? c with
    | some token => simp [Lexeme.read, htoken] at herror
    | none =>
      simp only [Lexeme.read, htoken] at herror
      cases herror
      have hstands := @Offence.StandsBehind.character front c rest
        (not_mem_alphabet hc hblank htoken)
      exact ⟨front, _, ⟨hstands, fun other front' => h.length_le⟩, .character⟩

end ReadsUpTo

/-! ## The error and the first offence -/

theorem EndsInSign.unique {front before before' : List Char} {sign sign' : Sign}
    (h : EndsInSign front before sign) (h' : EndsInSign front before' sign') :
    before' = before ∧ sign' = sign := by
  obtain ⟨hbefore, hsymbol⟩ := List.append_inj' (h'.front_eq.symm.trans h.front_eq) rfl
  exact ⟨hbefore, Sign.symbol_injective (List.cons.inj hsymbol).1⟩

namespace IsThroughSecondPoint

variable {part part' run : List Char}

theorem eq_of_prefix (h : IsThroughSecondPoint part run) (h' : IsThroughSecondPoint part' run)
    (hle : part <+: part') : part = part' := by
  obtain ⟨more, rfl⟩ := hle
  have hpoints := h'.points
  rw [List.count_append, h.points] at hpoints
  rcases List.eq_nil_or_concat more with rfl | ⟨more, c, rfl⟩
  · simp
  · have hlast := h'.last
    rw [List.concat_eq_append, ← List.append_assoc, List.getLast?_concat, Option.some.injEq] at hlast
    simp [hlast] at hpoints

theorem unique (h : IsThroughSecondPoint part run) (h' : IsThroughSecondPoint part' run) :
    part' = part := by
  rcases List.prefix_or_prefix_of_prefix h.front h'.front with hle | hle
  · exact (h.eq_of_prefix h' hle).symm
  · exact h'.eq_of_prefix h hle

theorem two_le_count (h : IsThroughSecondPoint part run) : 2 ≤ run.count '.' :=
  h.points ▸ h.front.sublist.count_le '.'

end IsThroughSecondPoint

theorem Offence.Reported.unique {front : List Char} {offence : Offence}
    {error error' : LexicalError} (h : offence.Reported front error)
    (h' : offence.Reported front error') : error' = error := by
  cases h with
  | character => cases h'; rfl
  | barePoint hsign hrun =>
    cases h' with
    | barePoint => rfl
    | secondPoint _ hrun' => exact absurd hrun hrun'
    | signedSecondPoint hsign' => exact absurd hsign' (hsign _ _)
    | signedPoint hsign' => exact absurd hsign' (hsign _ _)
  | secondPoint hsign hrun hpart =>
    cases h' with
    | barePoint _ hrun' => exact absurd hrun' hrun
    | secondPoint _ _ hpart' => rw [hpart.unique hpart']
    | signedSecondPoint hsign' => exact absurd hsign' (hsign _ _)
    | signedPoint hsign' => exact absurd hsign' (hsign _ _)
  | signedSecondPoint hsign hpart =>
    cases h' with
    | barePoint hsign' => exact absurd hsign (hsign' _ _)
    | secondPoint hsign' => exact absurd hsign (hsign' _ _)
    | signedSecondPoint hsign' hpart' =>
      obtain ⟨rfl, rfl⟩ := hsign.unique hsign'
      rw [hpart.unique hpart']
    | signedPoint => exact absurd hpart.two_le_count (by decide)
  | signedPoint hsign =>
    cases h' with
    | barePoint hsign' => exact absurd hsign (hsign' _ _)
    | secondPoint hsign' => exact absurd hsign (hsign' _ _)
    | signedSecondPoint _ hpart' => exact absurd hpart'.two_le_count (by decide)
    | signedPoint hsign' =>
      obtain ⟨rfl, rfl⟩ := hsign.unique hsign'
      rfl

/-- A fragment with fewer than two points is a sign and a point. -/
theorem Offence.Reported.exists_sign_of_fragment {front : List Char} {offence : Offence}
    {fragment : String} {position : Nat}
    (h : offence.Reported front (.malformedNumber fragment position))
    (hpoints : fragment.toList.count '.' < 2) :
    ∃ sign : Sign, fragment = String.ofList [sign.symbol, '.'] := by
  cases h with
  | secondPoint _ _ hpart =>
    rw [String.toList_ofList, hpart.points] at hpoints
    omega
  | @signedSecondPoint before run part sign _ hpart =>
    have hle := (List.sublist_cons_self sign.symbol part).count_le '.'
    rw [hpart.points] at hle
    rw [String.toList_ofList] at hpoints
    omega
  | @signedPoint before sign hsign => exact ⟨sign, rfl⟩

theorem Offence.Reported.getElem?_position {front text : List Char} {offence : Offence} {c : Char}
    {position : Nat} (h : offence.Reported front (.unknownCharacter c position))
    (hstands : offence.StandsBehind front text) : text[position]? = some c := by
  cases h with
  | character => cases hstands; simp
  | barePoint hsign hrun =>
    obtain ⟨more, rfl, -⟩ := hrun
    cases hstands
    simp

theorem exists_isFirst_of_error {source : String} {error : LexicalError}
    (h : tokenize source = .error error) : ∃ front offence,
      Offence.IsFirst offence front source.toList ∧ offence.Reported front error := by
  obtain ⟨front, c, rest, last, htext, hread, hblank, herror⟩ :=
    exists_readsUpTo_of_failure (tokenize_eq_error_iff_failure.1 h)
  rw [Nat.zero_add] at herror
  rw [htext]
  exact hread.exists_isFirst hblank herror

/-- **First offence.** A text is read with an error just if it has a first offence, of which the error
is the report. A fragment goes up to a second point, unless it is a sign and a point only, and an
unknown character is in the text where it is said to be. -/
theorem tokenize_eq_error_iff (source : String) (error : LexicalError) :
    (tokenize source = .error error ↔ ∃ front offence,
      (∀ (other : Offence) (front' : List Char),
        other.IsFirst front' source.toList ↔ front' = front ∧ other = offence) ∧
      offence.Reported front error) ∧
    (∀ fragment position, tokenize source = .error (.malformedNumber fragment position) →
      fragment.toList.count '.' < 2 → ∃ sign : Sign, fragment = String.ofList [sign.symbol, '.']) ∧
    ∀ c position, tokenize source = .error (.unknownCharacter c position) →
      source.toList[position]? = some c := by
  refine ⟨⟨?reported, ?rejected⟩, ?fragment, ?character⟩
  case reported =>
    intro h
    obtain ⟨front, offence, hfirst, hreported⟩ := exists_isFirst_of_error h
    exact ⟨front, offence, hfirst.unique, hreported⟩
  case rejected =>
    intro ⟨front, offence, hunique, hreported⟩
    have hfirst := (hunique offence front).2 ⟨rfl, rfl⟩
    cases h : tokenize source with
    | ok tokens => exact absurd hfirst.stands ((reads_of_tokenize h).not_standsBehind offence)
    | error error' =>
      obtain ⟨front', offence', hfirst', hreported'⟩ := exists_isFirst_of_error h
      obtain ⟨rfl, rfl⟩ := (hunique offence' front').1 hfirst'
      rw [hreported.unique hreported']
  case fragment =>
    intro fragment position h
    obtain ⟨front, offence, -, hreported⟩ := exists_isFirst_of_error h
    exact hreported.exists_sign_of_fragment
  case character =>
    intro c position h
    obtain ⟨front, offence, hfirst, hreported⟩ := exists_isFirst_of_error h
    exact hreported.getElem?_position hfirst.stands

example : (Scan.ofText "7*-1.2.3&").failure? = some (.malformedNumber "-1.2." 2) := by
  decide +kernel

/-! ## Texts without offence -/

/-- **Acceptance.** A text has tokens just if all its characters are in the alphabet and each of its
runs has a digit and at most one point. What stands before a run, a sign or not, is no matter. -/
theorem exists_tokenize_eq_ok_iff (source : String) :
    (∃ tokens, tokenize source = .ok tokens) ↔
      (∀ c ∈ source.toList, c ∈ alphabet) ∧
      ∀ front run rest, source.toList = front ++ (run ++ rest) → IsRun front run rest →
        (∃ c ∈ run, c.isDigit = true) ∧ run.count '.' ≤ 1 := by
  constructor
  · rintro ⟨tokens, h⟩
    have hreads := reads_of_tokenize h
    refine ⟨hreads.mem_alphabet, fun front run rest htext hrun => ?_⟩
    have hnumeral := hreads.isNumeral_of_isRun hrun htext
    exact ⟨hnumeral.digit, hnumeral.points⟩
  · rintro ⟨halphabet, hruns⟩
    cases h : tokenize source with
    | ok tokens => exact ⟨tokens, rfl⟩
    | error error =>
      exfalso
      obtain ⟨front, offence, hfirst, -⟩ := exists_isFirst_of_error h
      generalize htext : source.toList = text at hfirst
      cases hfirst.stands with
      | @character c rest hc => exact hc (halphabet c (by simp [htext]))
      | @run run rest hrun hbad =>
        obtain ⟨⟨c, hc, hdigit⟩, hpoints⟩ := hruns front run rest htext hrun
        rcases hbad with hbad | hbad
        · rw [hbad c hc] at hdigit
          cases hdigit
        · omega

end Calculator
