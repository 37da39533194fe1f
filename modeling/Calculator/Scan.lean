import Calculator.Lexeme

/-!
# Scans

A text is read from left to right. What is read next depends only on the token before it, which
decides whether `+` and `-` may be signs. A scan ends at the end of the text or at the first
offence; the tokens before the offence stay known.
-/

namespace Calculator

structure Scan where
  tokens : List Token
  failure? : Option LexicalError
deriving DecidableEq

namespace Scan

def cons (token : Token) (scan : Scan) : Scan := { scan with tokens := token :: scan.tokens }

/-- Scans a text that begins at `position`, after the token `previous`. -/
def after (previous : Option Token) (position : Nat) : List Char → Scan
  | [] => ⟨[], none⟩
  | c :: rest =>
    if isBlank c then after previous (position + 1) rest
    else
      let lexeme := (Lexeme.split (Token.signMayFollow previous) c rest).1
      match lexeme.read position with
      | .ok token =>
        cons token (after (some token) (position + lexeme.chars.length)
          (Lexeme.split (Token.signMayFollow previous) c rest).2)
      | .error error => ⟨[], some error⟩
termination_by text => text.length
decreasing_by
  · simp
  · exact Lexeme.length_split_lt ..

theorem after_nil (previous : Option Token) (position : Nat) :
    after previous position [] = ⟨[], none⟩ := by
  rw [after]

theorem after_blank (previous : Option Token) (position : Nat) {c : Char} (rest : List Char)
    (hc : isBlank c = true) :
    after previous position (c :: rest) = after previous (position + 1) rest := by
  rw [after, if_pos hc]

theorem after_token {previous : Option Token} {position : Nat} {c : Char} {rest rest' : List Char}
    {lexeme : Lexeme} {token : Token} (hc : isBlank c = false)
    (hsplit : Lexeme.split (Token.signMayFollow previous) c rest = (lexeme, rest'))
    (hread : lexeme.read position = .ok token) :
    after previous position (c :: rest) =
      cons token (after (some token) (position + lexeme.chars.length) rest') := by
  rw [after, hsplit]
  simp [hc, hread]

theorem after_error {previous : Option Token} {position : Nat} {c : Char} {rest rest' : List Char}
    {lexeme : Lexeme} {error : LexicalError} (hc : isBlank c = false)
    (hsplit : Lexeme.split (Token.signMayFollow previous) c rest = (lexeme, rest'))
    (hread : lexeme.read position = .error error) :
    after previous position (c :: rest) = ⟨[], some error⟩ := by
  rw [after, hsplit]
  simp [hc, hread]

def ofText (text : String) : Scan := after none 0 text.toList

def result (scan : Scan) : Except LexicalError (List Token) :=
  match scan.failure? with
  | none => .ok scan.tokens
  | some error => .error error

theorem result_eq_ok_iff {scan : Scan} {tokens : List Token} :
    scan.result = .ok tokens ↔ scan = ⟨tokens, none⟩ := by
  obtain ⟨tokens', failure?⟩ := scan
  cases failure? <;> simp [result]

theorem result_eq_error_iff {scan : Scan} {error : LexicalError} :
    scan.result = .error error ↔ scan.failure? = some error := by
  obtain ⟨tokens, failure?⟩ := scan
  cases failure? <;> simp [result]

end Scan

/-- The tokens of a text, or its first offence. -/
def tokenize (text : String) : Except LexicalError (List Token) := (Scan.ofText text).result

theorem tokenize_eq_error_iff_failure {text : String} {error : LexicalError} :
    tokenize text = .error error ↔ (Scan.after none 0 text.toList).failure? = some error :=
  Scan.result_eq_error_iff

end Calculator
