import Calculator.Chain.Value
import Calculator.Group
import Calculator.Scan
import Calculator.Signs

/-!
# Evaluation

Groups are replaced by their values, the right-most one first, until no parentheses are left; then
the rest is worked out as a chain. Signs are joined to their numbers in groups only: outside them the
text has settled which signs belong to a number.
-/

namespace Calculator

/-- The value of tokens without parentheses. -/
def valueOfFlat (tokens : List Token) : Journaled Number := do
  let chain ← Journaled.ofExcept (Chain.ofTokens tokens)
  chain.value

/-- Replaces every group by its value. -/
def collapseGroups (tokens : List Token) : Journaled (List Token) :=
  match _hlast : Group.last? tokens with
  | .error error => Journaled.fail error
  | .ok none => pure tokens
  | .ok (some group) => do
    let value ← valueOfFlat (absorbSigns group.inside)
    Journaled.record (.group group.openingIndex group.closingIndex value)
    collapseGroups (group.replaceBy value)
termination_by tokens.length
decreasing_by
  rw [← Group.tokens_of_last? _hlast]
  exact group.length_replaceBy_lt value

theorem collapseGroups_of_error {tokens : List Token} {error : Error}
    (h : Group.last? tokens = .error error) : collapseGroups tokens = Journaled.fail error := by
  rw [collapseGroups]
  split <;> simp_all

theorem collapseGroups_of_none {tokens : List Token} (h : Group.last? tokens = .ok none) :
    collapseGroups tokens = pure tokens := by
  rw [collapseGroups]
  split <;> simp_all

theorem collapseGroups_of_some {tokens : List Token} {group : Group}
    (h : Group.last? tokens = .ok (some group)) :
    collapseGroups tokens =
      valueOfFlat (absorbSigns group.inside) >>= fun value =>
        Journaled.record (.group group.openingIndex group.closingIndex value) >>= fun _ =>
          collapseGroups (group.replaceBy value) := by
  rw [collapseGroups]
  split <;> simp_all

def valueOf (tokens : List Token) : Journaled Number := do
  let flat ← collapseGroups tokens
  valueOfFlat flat

/-- Reads the tokens of a text. Those before an offence are kept in the journal. -/
def readTokens (text : String) : Journaled (List Token) :=
  let scan := Scan.ofText text
  ⟨scan.tokens.map .token, scan.result.mapError .lexical⟩

def evaluate (text : String) : Journaled Number := do
  let tokens ← readTokens text
  let value ← valueOf tokens
  Journaled.record (.result text value)
  return value

end Calculator
