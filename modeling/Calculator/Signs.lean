import Calculator.Token

/-!
# Signs in groups

The tokens of a group are read as a text of their own would be: `+` or `-` in sign position, at the
start or after an operator, is the sign of the number after it. A number that already has the sign
`-` takes no other.
-/

namespace Calculator

/-- Joins signs with their numbers in tokens that follow the token `previous`. -/
def absorbSignsAfter (previous : Option Token) : List Token → List Token
  | .operator op :: .number value :: rest =>
    match if Token.signMayFollow previous && !value.isNegative then op.sign? else none with
    | some sign =>
      let signed := Token.number (sign.apply value)
      signed :: absorbSignsAfter (some signed) rest
    | none => .operator op :: absorbSignsAfter (some (.operator op)) (.number value :: rest)
  | token :: rest => token :: absorbSignsAfter (some token) rest
  | [] => []

def absorbSigns (tokens : List Token) : List Token := absorbSignsAfter none tokens

/-! ## Laws -/

/-- The second tokens are the first ones with some of the signs joined to their numbers. -/
inductive Joins : Option Token → List Token → List Token → Prop
  | nil {previous : Option Token} : Joins previous [] []
  | keep {previous : Option Token} {token : Token} {tokens joined : List Token}
      (h : Joins (some token) tokens joined) : Joins previous (token :: tokens) (token :: joined)
  | join {previous : Option Token} {op : Operator} {sign : Sign} {value : Number}
      {tokens joined : List Token} (hprevious : Token.signMayFollow previous = true)
      (hsign : op.sign? = some sign) (hvalue : value.isNegative = false)
      (h : Joins (some (.number (sign.apply value))) tokens joined) :
      Joins previous (.operator op :: .number value :: tokens)
        (.number (sign.apply value) :: joined)

theorem joins_absorbSignsAfter (previous : Option Token) (tokens : List Token) :
    Joins previous tokens (absorbSignsAfter previous tokens) := by
  fun_induction absorbSignsAfter previous tokens with
  | case1 previous op value rest sign hsign signed ih =>
    split at hsign
    · rename_i hcond
      simp only [Bool.and_eq_true, Bool.not_eq_true'] at hcond
      exact .join hcond.1 hsign hcond.2 ih
    · cases hsign
  | case2 previous op value rest hnone ih => exact .keep ih
  | case3 previous token rest hpair ih => exact .keep ih
  | case4 previous => exact .nil

end Calculator
