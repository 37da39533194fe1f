import Calculator.Error

/-!
# Messages tell errors apart

`message_eq_iff`: different errors have different messages. What a message quotes may hold any
characters, and so what looks like the end of a quotation. The message is read from both ends: the
position is behind its last space, and the quotation is what is left between texts that are known.
-/

namespace Calculator

/-! ## Behind the last space -/

theorem eq_nil_of_cons_eq_append {c : Char} {between behind behind' : List Char} (h : c ∉ behind)
    (heq : c :: behind = between ++ c :: behind') : between = [] := by
  cases between with
  | nil => rfl
  | cons d between =>
    rw [List.cons_append] at heq
    rw [(List.cons.inj heq).2] at h
    exact absurd (List.mem_append_right between List.mem_cons_self) h

theorem eq_of_append_cons_eq {c : Char} {front front' behind behind' : List Char} (h : c ∉ behind)
    (h' : c ∉ behind') (heq : front ++ c :: behind = front' ++ c :: behind') :
    front = front' ∧ behind = behind' := by
  have hfront : front = front' := by
    rcases List.append_eq_append_iff.1 heq with ⟨between, rfl, hb⟩ | ⟨between, rfl, hb⟩
    · rw [eq_nil_of_cons_eq_append h hb, List.append_nil]
    · rw [eq_nil_of_cons_eq_append h' hb, List.append_nil]
  subst hfront
  exact ⟨rfl, (List.cons.inj (List.append_cancel_left heq)).2⟩

/-- A position as messages end with it. -/
def positionText (position : Nat) : List Char := Nat.toDigits 10 position ++ ['.']

theorem space_not_mem_positionText (position : Nat) : ' ' ∉ positionText position := by
  rw [positionText, List.mem_append, not_or]
  refine ⟨fun hspace => ?_, by decide⟩
  have hdigit := Nat.isDigit_of_mem_toDigits (by decide) (by decide) hspace
  exact absurd hdigit (by decide)

theorem positionText_injective {position other : Nat}
    (h : positionText position = positionText other) : position = other := by
  have hdigits := congrArg (fun digits => Nat.ofDigitChars 10 digits 0) (List.append_cancel_right h)
  simpa only [Nat.ofDigitChars_ten_toDigits] using hdigits

theorem eq_of_append_positionText {front front' : List Char} {position position' : Nat}
    (h : front ++ ' ' :: positionText position = front' ++ ' ' :: positionText position') :
    front = front' ∧ position = position' := by
  obtain ⟨hfront, hposition⟩ := eq_of_append_cons_eq (space_not_mem_positionText position)
    (space_not_mem_positionText position') h
  exact ⟨hfront, positionText_injective hposition⟩

/-! ## The characters of the messages -/

namespace LexicalError

theorem toList_message_unknownCharacter (character : Char) (position : Nat) :
    (unknownCharacter character position).message.toList =
      ("Unknown character '".toList ++ character :: "' at position".toList) ++
        ' ' :: positionText position := by
  show ("Unknown character '" ++ String.singleton character ++ "' at position " ++
    toString position ++ ".").toList = _
  simp [positionText]

theorem toList_message_malformedNumber (fragment : String) (position : Nat) :
    (malformedNumber fragment position).message.toList =
      ("Invalid number format near '".toList ++ (fragment.toList ++ "' at position".toList)) ++
        ' ' :: positionText position := by
  show ("Invalid number format near '" ++ fragment ++ "' at position " ++ toString position ++
    ".").toList = _
  simp [positionText]

end LexicalError

namespace Error

theorem toList_message_unmatched {parenthesis : Char} (h : parenthesis ≠ '(') :
    (unmatched parenthesis).message.toList =
      "UnmatchedParen: '".toList ++ parenthesis :: "' has no matching '('.".toList := by
  rw [message, if_neg h]
  show ("UnmatchedParen: '" ++ String.singleton parenthesis ++ "' has no matching '('.").toList = _
  simp

/-- The first characters of a message, which say what kind of error it is about. -/
def heading : Error → String
  | lexical (.unknownCharacter ..) => "Unk"
  | lexical (.malformedNumber ..) => "Inv"
  | unmatched parenthesis => if parenthesis = '(' then "Mis" else "Unm"
  | malformed => "Mal"
  | divisionByZero => "Div"

theorem take_message (error : Error) : error.message.toList.take 3 = error.heading.toList := by
  cases error with
  | lexical error =>
    cases error with
    | unknownCharacter character position =>
      show (LexicalError.message _).toList.take 3 = _
      rw [LexicalError.toList_message_unknownCharacter]
      simp [heading]
    | malformedNumber fragment position =>
      show (LexicalError.message _).toList.take 3 = _
      rw [LexicalError.toList_message_malformedNumber]
      simp [heading]
  | unmatched parenthesis =>
    by_cases h : parenthesis = '('
    · subst h
      decide
    · rw [toList_message_unmatched h, heading, if_neg h]
      simp
  | malformed => decide
  | divisionByZero => decide

theorem heading_eq {first second : Error} (h : first.message = second.message) :
    first.heading = second.heading := by
  rw [← String.toList_inj, ← take_message, ← take_message, h]

theorem unmatched_inj {parenthesis other : Char}
    (h : (unmatched parenthesis).message = (unmatched other).message) : parenthesis = other := by
  have hheading := heading_eq h
  simp only [heading] at hheading
  by_cases hp : parenthesis = '('
  · by_cases ho : other = '('
    · rw [hp, ho]
    · rw [if_pos hp, if_neg ho] at hheading
      exact absurd hheading (by decide)
  · by_cases ho : other = '('
    · rw [if_neg hp, if_pos ho] at hheading
      exact absurd hheading (by decide)
    · have hlist := congrArg String.toList h
      rw [toList_message_unmatched hp, toList_message_unmatched ho] at hlist
      exact (List.cons.inj (List.append_cancel_left hlist)).1

theorem lexical_inj {first second : LexicalError} (h : first.message = second.message) :
    first = second := by
  have hheading : (lexical first).heading = (lexical second).heading := heading_eq h
  have hlist := congrArg String.toList h
  cases first with
  | unknownCharacter character position =>
    cases second with
    | unknownCharacter character' position' =>
      simp only [LexicalError.toList_message_unknownCharacter] at hlist
      obtain ⟨hfront, rfl⟩ := eq_of_append_positionText hlist
      rw [(List.cons.inj (List.append_cancel_left hfront)).1]
    | malformedNumber fragment' position' =>
      exact absurd (show "Unk" = "Inv" from hheading) (by decide)
  | malformedNumber fragment position =>
    cases second with
    | unknownCharacter character' position' =>
      exact absurd (show "Inv" = "Unk" from hheading) (by decide)
    | malformedNumber fragment' position' =>
      simp only [LexicalError.toList_message_malformedNumber] at hlist
      obtain ⟨hfront, rfl⟩ := eq_of_append_positionText hlist
      have hfragment := List.append_cancel_right (List.append_cancel_left hfront)
      rw [String.toList_inj.1 hfragment]

/-- **Messages.** The message of an error determines the error. -/
theorem message_eq_iff (first second : Error) : first.message = second.message ↔ first = second := by
  constructor
  · intro h
    have hheading := heading_eq h
    cases first <;> cases second
    case lexical.lexical error other => rw [lexical_inj h]
    case unmatched.unmatched parenthesis other => rw [unmatched_inj h]
    case malformed.malformed => rfl
    case divisionByZero.divisionByZero => rfl
    all_goals grind [heading, cases LexicalError]
  · rintro rfl
    rfl

end Error

end Calculator
