import Mathlib.Data.List.TakeWhile
import Calculator.Evaluation
import Calculator.Proofs.FirstOffence
import Calculator.Proofs.TextParts

/-!
# What an error is about

A lexical error quotes a part of the text. `tokenize_error_excerpt`: the text before that part has
tokens, the text up to its end fails already, and no text behind it makes up for the error, except
digits or points that lengthen the last run.
-/

namespace Calculator

/-- The part of the text that the error quotes. -/
def LexicalError.excerpt : LexicalError → List Char
  | unknownCharacter c _ => [c]
  | malformedNumber fragment _ => fragment.toList

/-! ## Runs cut short -/

theorem IsThroughSecondPoint.eq_some {run part : List Char} (h : IsThroughSecondPoint part run) :
    Lexeme.throughSecondPoint? part = some part := by
  have hself : IsThroughSecondPoint part part := ⟨List.prefix_refl _, h.last, h.points⟩
  cases hpart : Lexeme.throughSecondPoint? part with
  | none =>
    have := Lexeme.throughSecondPoint?_eq_none_iff.1 hpart
    have := h.points
    omega
  | some part' => rw [(Lexeme.isThroughSecondPoint hpart).unique hself]

theorem IsThroughSecondPoint.isBarePoint {run part : List Char} (h : IsThroughSecondPoint part run)
    (hpart : IsBarePoint part) : IsBarePoint run := by
  obtain ⟨more, rfl, hmore⟩ := hpart
  obtain ⟨behind, rfl⟩ := h.front
  refine ⟨more ++ behind, rfl, fun c hc => hmore c ?_⟩
  cases more with
  | nil => exact absurd h.points (by decide)
  | cons d more => exact hc

namespace Lexeme

/-- A run that is read with an error is read with the same error where the excerpt ends. -/
theorem exists_part_of_read {position : Nat} {sign? : Option Sign} {run : List Char}
    {error : LexicalError} (hrun : ∀ c ∈ run, isNumeric c = true) (hne : run ≠ [])
    (h : (literal sign? run).read position = .error error) :
    ∃ part, part ≠ [] ∧ part <+: run ∧ error.excerpt = (literal sign? part).chars ∧
      (literal sign? part).read position = .error error := by
  rcases error_of_read_literal hrun hne h with
    ⟨rfl, ⟨rest, rfl, -⟩, rfl⟩ | ⟨part, hbare, hpart, rfl⟩ | ⟨sign, rfl, rfl, rfl⟩
  · exact ⟨['.'], by simp, ⟨rest, rfl⟩, rfl, rfl⟩
  · refine ⟨part, ?_, hpart.front, String.toList_ofList, ?_⟩
    · rintro rfl
      exact absurd hpart.points (by decide)
    · have hcond : (sign?.isNone && beginsWithBarePoint part) = false := by
        refine Bool.eq_false_iff.2 fun hboth => ?_
        obtain ⟨hnone, hpoint⟩ := Bool.and_eq_true_iff.1 hboth
        exact hbare (Option.isNone_iff_eq_none.1 hnone)
          (hpart.isBarePoint (beginsWithBarePoint_iff.1 hpoint))
      simp only [read, hcond, hpart.eq_some]
      rfl
  · exact ⟨['.'], by simp, List.prefix_refl _, String.toList_ofList, h⟩

/-- Of a text that begins with an error, the excerpt is enough to have the error. -/
theorem exists_split_excerpt {signed : Bool} {c : Char} {rest : List Char} {position : Nat}
    {error : LexicalError} (h : (split signed c rest).1.read position = .error error) :
    ∃ tail, error.excerpt = c :: tail ∧ tail <+: rest ∧
      (split signed c tail).1.read position = .error error := by
  have hview := split_view signed c rest
  generalize split signed c rest = parts at h hview
  cases hview with
  | run hc =>
    have hrun : ∀ d ∈ c :: rest.takeWhile isNumeric, isNumeric d = true :=
      List.forall_mem_cons.2 ⟨hc, takeWhile_isNumeric rest⟩
    obtain ⟨part, hne, hpart, hexcerpt, hread⟩ := exists_part_of_read hrun (by simp) h
    obtain ⟨d, tail, rfl⟩ := List.exists_cons_of_ne_nil hne
    obtain ⟨rfl, htail⟩ := List.cons_prefix_cons.1 hpart
    have hall : ∀ e ∈ tail, isNumeric e = true := fun e he =>
      takeWhile_isNumeric rest e (htail.subset he)
    refine ⟨tail, hexcerpt, htail.trans (List.takeWhile_prefix _), ?_⟩
    rw [split_literal _ _ hc, List.takeWhile_eq_self_iff.2 hall]
    exact hread
  | signed hsign hnext =>
    obtain ⟨rfl, hhead⟩ := Bool.and_eq_true_iff.1 hnext
    obtain rfl := Sign.ofSymbol?_eq_some_iff.1 hsign
    obtain ⟨part, hne, hpart, hexcerpt, hread⟩ :=
      exists_part_of_read (takeWhile_isNumeric rest) (takeWhile_isNumeric_ne_nil hhead) h
    have hall : ∀ d ∈ part, isNumeric d = true := fun d hd =>
      takeWhile_isNumeric rest d (hpart.subset hd)
    have hhead' : part.head?.any isNumeric = true := by
      obtain ⟨d, part, rfl⟩ := List.exists_cons_of_ne_nil hne
      exact hall d (List.mem_cons_self ..)
    refine ⟨part, hexcerpt, hpart.trans (List.takeWhile_prefix _), ?_⟩
    rw [split_signed (isNumeric_symbol _) hsign hhead', List.takeWhile_eq_self_iff.2 hall]
    exact hread
  | symbol hc hno =>
    cases htoken : Token.ofSymbol? c with
    | some token => simp [read, htoken] at h
    | none =>
      have hread := h
      simp only [read, htoken] at h
      cases h
      refine ⟨[], rfl, List.nil_prefix, ?_⟩
      rw [split_symbol hc fun _ => Bool.and_false signed]
      exact hread

end Lexeme

/-! ## The front of a text -/

theorem Lexeme.Denotes.congr {previous : Option Token} {rest rest' : List Char} {lexeme : Lexeme}
    {token : Token} (h : lexeme.Denotes previous rest token) (hhead : rest'.head? = rest.head?) :
    lexeme.Denotes previous rest' token := by
  cases h with
  | symbol hsymbol hsign =>
    refine .symbol hsymbol fun hpm hliteral => hsign hpm ?_
    rwa [SignsLiteral, hhead] at hliteral
  | literal hrun hend hsign =>
    refine .literal hrun (by rwa [hhead]) fun hne => ?_
    have hliteral := hsign hne
    rwa [SignsLiteral, List.head?_append, ← hhead, ← List.head?_append] at hliteral

namespace ReadsUpTo

variable {rest front : List Char} {last previous : Option Token} {tokens : List Token}

/-- Of what follows, only the first character is in view. -/
theorem congr {rest' : List Char} (h : ReadsUpTo rest last previous front tokens)
    (hhead : rest'.head? = rest.head?) : ReadsUpTo rest' last previous front tokens := by
  induction h with
  | blanks hb => exact .blanks hb
  | token hb hlexeme hfront ih =>
    refine .token hb (hlexeme.congr ?_) ih
    rw [List.head?_append, hhead, ← List.head?_append]

theorem after_append (h : ReadsUpTo rest last previous front tokens) (position : Nat) :
    Scan.after previous position (front ++ rest) =
      Scan.andThen ⟨tokens, none⟩ (Scan.after last (position + front.length) rest) := by
  induction h generalizing position with
  | blanks hb =>
    rw [after_blanks_append _ _ hb]
    rfl
  | @token previous blanks front lexeme token tokens hb hlexeme hfront ih =>
    obtain ⟨c, chars, hchars, hc, hsplit, hread⟩ := Lexeme.split_of_denotes hlexeme
    rw [List.append_assoc, after_blanks_append _ _ hb, List.append_assoc, hchars, List.cons_append,
      Scan.after_token hc hsplit (hread _), ih, hchars]
    simp only [List.length_append, ← Nat.add_assoc]
    rfl

end ReadsUpTo

/-! ## The excerpt of an error -/

/-- **Excerpts.** The excerpt of an error is in the text at the position of the error. The text before
it has the tokens that are known when the whole text fails. Up to the end of the excerpt the text has
the error, and it keeps it with any text behind it that does not begin with a digit or a point. -/
theorem tokenize_error_excerpt {source : String} {error : LexicalError}
    (h : tokenize source = .error error) :
    (error.excerpt ≠ [] ∧ error.excerpt <+: source.toList.drop error.position) ∧
    (tokenize (String.ofList (source.toList.take error.position)) =
        .ok (Scan.ofText source).tokens ∧
      (evaluate source).events = (Scan.ofText source).tokens.map .token) ∧
    tokenize (String.ofList (source.toList.take (error.position + error.excerpt.length))) =
      .error error ∧
    ∀ text : String, (∀ c, text.toList.head? = some c → isNumeric c = false) →
      tokenize (source ++ text) = .error error := by
  have hfailure := tokenize_eq_error_iff_failure.1 h
  obtain ⟨front, c, rest, last, htext, hfront, hblank, herror⟩ := exists_readsUpTo_of_failure hfailure
  rw [Nat.zero_add] at herror
  have hposition := Lexeme.position_of_read herror
  obtain ⟨tail, hexcerpt, ⟨behind, rfl⟩, hread⟩ := Lexeme.exists_split_excerpt herror
  have hsource : source.toList = (front ++ c :: tail) ++ behind := by rw [htext]; simp
  refine ⟨⟨?nonempty, ?found⟩, ⟨?before, ?events⟩, ?excerpt, ?behind⟩
  case nonempty => simp [hexcerpt]
  case found =>
    rw [hsource, hposition, hexcerpt, List.append_assoc, List.drop_left]
    exact List.prefix_append ..
  case before =>
    rw [hsource, hposition, List.append_assoc, List.take_left]
    exact hfront.tokenize_eq
  case events =>
    have hread : (readTokens source).outcome = .error (.lexical error) := by
      show (tokenize source).mapError Error.lexical = _
      rw [h]
      rfl
    rw [evaluate, Journaled.bind_error hread]
    rfl
  case excerpt =>
    have hlength : error.position + error.excerpt.length = (front ++ c :: tail).length := by
      rw [hposition, hexcerpt, List.length_append]
    have hcut : ReadsUpTo (c :: tail) last none front _ := hfront.congr rfl
    rw [hsource, hlength, List.take_left, tokenize_eq_error_iff_failure, String.toList_ofList,
      hcut.after_append, Scan.failure?_andThen rfl, Nat.zero_add, Scan.after_error hblank rfl hread]
  case behind =>
    intro text htext'
    rw [tokenize_eq_error_iff_failure, String.toList_append,
      Scan.after_append _ _ (parted_of_head? htext'), Scan.andThen_of_failure hfailure, hfailure]

/-- The sign belongs to the fragment, the digits behind its second point do not. -/
theorem tokenize_error_excerpt_signed_fragment :
    tokenize "7*-1.2.3&" = .error (.malformedNumber "-1.2." 2) ∧
      tokenize "7*" = .ok [.number 7, .operator .mul] ∧
      tokenize "7*-1.2." = .error (.malformedNumber "-1.2." 2) ∧
      tokenize ("7*-1.2.3&" ++ "+4") = .error (.malformedNumber "-1.2." 2) := by
  have h : tokenize "7*-1.2.3&" = .error (.malformedNumber "-1.2." 2) :=
    tokenize_eq_error_iff_failure.2 (by decide +kernel)
  have htokens : (Scan.ofText "7*-1.2.3&").tokens = [.number 7, .operator .mul] := by decide +kernel
  obtain ⟨-, ⟨hbefore, -⟩, hexcerpt, hbehind⟩ := tokenize_error_excerpt h
  rw [htokens] at hbefore
  refine ⟨h, hbefore, hexcerpt, hbehind "+4" fun c hc => ?_⟩
  cases hc
  rfl

/-- A digit behind a lone point makes it part of a number. -/
example : (Scan.ofText "-.").failure? = some (.malformedNumber "-." 0) ∧
    (Scan.ofText "-.5").failure? = none := by decide +kernel

end Calculator
