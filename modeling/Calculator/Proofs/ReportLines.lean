import Calculator.Proofs.Messages
import Calculator.Proofs.Reports

/-!
# The lines of a report

A report is read back line by line: a line of complaint for each failure, and a line of output for each
value and each list of tokens (`report_lines`). To list the tokens makes no difference to the other
lines (`report_listsTokens`).
-/

namespace Calculator.Batch

/-! ## The lines of an answer -/

def complaint? (limit : Nat) (expression : String) : Option String :=
  if limit < expression.length then some (complaint (.tooLong expression.length limit))
  else
    match (evaluate expression).outcome with
    | .ok _ => none
    | .error error => some (complaint (.evaluation error))

/-- The line for what comes of reading an expression, if it is read and anything comes of it. -/
def line? {ε α : Type} (limit : Nat) (expression : String) (outcome : Except ε α)
    (write : α → String) : Option String :=
  if limit < expression.length then none else outcome.toOption.map write

def valueLine? (limit : Nat) (expression : String) : Option String :=
  line? limit expression (evaluate expression).outcome Event.plain

def tokenLine? (limit : Nat) (expression : String) : Option String :=
  line? limit expression (tokenize expression) tokenLine

theorem line?_eq_some {ε α : Type} {limit : Nat} {expression line : String} {outcome : Except ε α}
    {write : α → String} (h : line? limit expression outcome write = some line) :
    ∃ x, line = write x := by
  unfold line? at h
  split at h
  · cases h
  · obtain ⟨x, -, rfl⟩ := Option.map_eq_some_iff.1 h
    exact ⟨x, rfl⟩

theorem isSome_line? {ε α : Type} (limit : Nat) (expression : String) (outcome : Except ε α)
    (write : α → String) :
    (line? limit expression outcome write).isSome =
      (expression.length ≤ limit && outcome.isOk) := by
  unfold line?
  split
  · rename_i hlong
    simp [Nat.not_le.2 hlong]
  · rename_i hlength
    cases outcome <;> simp [Nat.not_lt.1 hlength, Except.toOption, Except.isOk, Except.toBool]

def outputLines (settings : Settings) (expression : String) : List String :=
  (if settings.listsTokens then (tokenLine? settings.maxLength expression).toList else []) ++
    (valueLine? settings.maxLength expression).toList

theorem answer_spec (settings : Settings) (expression : String) :
    (answer settings expression).failure?.map complaint = complaint? settings.maxLength expression ∧
    (answer settings expression).lines = outputLines settings expression := by
  unfold answer result complaint? outputLines tokenLine? valueLine? line?
  split
  · simp
  · split
    · cases htokens : tokenize expression with
      | error error =>
        -- the evaluation would have failed by the same error
        rw [outcome_evaluate_eq_lexical_iff.2 htokens]
        exact ⟨rfl, rfl⟩
      | ok tokens => cases (evaluate expression).outcome <;> exact ⟨rfl, rfl⟩
    · cases (evaluate expression).outcome <;> exact ⟨rfl, rfl⟩

theorem complaints_answers (settings : Settings) (expressions : List String) :
    ((expressions.map (answer settings)).filterMap Answer.failure?).map complaint =
      expressions.filterMap (complaint? settings.maxLength) := by
  rw [List.filterMap_map, List.map_filterMap]
  refine List.filterMap_congr fun expression _ => ?_
  exact (answer_spec settings expression).1

theorem lines_answers (settings : Settings) (expressions : List String) :
    (expressions.map (answer settings)).flatMap Answer.lines =
      expressions.flatMap (outputLines settings) := by
  rw [List.flatMap_map]
  exact List.flatMap_congr fun expression _ => (answer_spec settings expression).2

/-- What a batch reports, by the lines of its expressions. -/
theorem report_eq (settings : Settings) (expressions : List String) :
    report settings expressions =
      { failures := (expressions.filterMap (complaint? settings.maxLength)).length
        output := text (expressions.flatMap (outputLines settings))
        complaints := text (expressions.filterMap (complaint? settings.maxLength)) } := by
  rw [report_eq_summary, summary, complaints_answers, lines_answers, ← complaints_answers settings,
    List.length_map]

/-! ## Each line is one -/

theorem isLine_of_complaint {limit : Nat} {expression line : String}
    (h : complaint? limit expression = some line) : IsLine line ∧ "error: ".toList <+: line.toList := by
  have hstart (failure : Failure) : "error: ".toList <+: (complaint failure).toList :=
    ⟨failure.message.toList, String.toList_append.symm⟩
  have herror : IsLine "error: " := by decide
  unfold complaint? at h
  split at h
  · cases h
    have hframe : IsLine "Expression is " ∧ IsLine " characters long; the limit is " ∧ IsLine "." := by
      decide
    have hmessage : IsLine ("Expression is " ++ toString expression.length ++
        " characters long; the limit is " ++ toString limit ++ ".") := by
      simp only [isLine_append, isLine_toString_nat, hframe, and_self]
    exact ⟨isLine_append.2 ⟨herror, hmessage⟩, hstart _⟩
  · split at h
    · cases h
    · rename_i error hevaluate
      cases h
      exact ⟨isLine_append.2 ⟨herror, isLine_message_of_evaluate hevaluate⟩, hstart _⟩

theorem isLine_of_valueLine {limit : Nat} {expression line : String}
    (h : valueLine? limit expression = some line) :
    IsLine line ∧ "tokens: ".toList.isPrefixOf line.toList = false := by
  obtain ⟨value, rfl⟩ := line?_eq_some h
  -- no number is written with a `t`
  refine ⟨isLine_plain value, Bool.eq_false_iff.2 fun hstart => ?_⟩
  have hletter : 't' ∈ (Event.plain value).toList :=
    (List.isPrefixOf_iff_prefix.1 hstart).subset (show 't' ∈ "tokens: ".toList by decide)
  rw [Event.plain, String.toList_ofList] at hletter
  exact Layout.not_mem_number rfl value rfl hletter

theorem isLine_of_tokenLine {limit : Nat} {expression line : String}
    (h : tokenLine? limit expression = some line) :
    IsLine line ∧ "tokens: ".toList.isPrefixOf line.toList = true := by
  obtain ⟨tokens, rfl⟩ := line?_eq_some h
  refine ⟨isLine_tokenLine tokens, List.isPrefixOf_iff_prefix.2 ?_⟩
  simp only [tokenLine, String.toList_append, List.append_assoc]
  exact List.IsPrefix.trans (by decide) (List.prefix_append ..)

theorem isLine_of_mem_outputLines {settings : Settings} {expression line : String}
    (h : line ∈ outputLines settings expression) : IsLine line := by
  rcases List.mem_append.1 h with htokens | hvalue
  · split at htokens
    · exact (isLine_of_tokenLine (Option.mem_toList.1 htokens)).1
    · cases htokens
  · exact (isLine_of_valueLine (Option.mem_toList.1 hvalue)).1

theorem isLine_of_mem_flatMap {settings : Settings} {expressions : List String} :
    ∀ line ∈ expressions.flatMap (outputLines settings), IsLine line := by
  intro line hline
  obtain ⟨expression, -, hline⟩ := List.mem_flatMap.1 hline
  exact isLine_of_mem_outputLines hline

theorem textLines_complaints (settings : Settings) (expressions : List String) :
    textLines (report settings expressions).complaints.toList =
      (expressions.filterMap (complaint? settings.maxLength)).map fun line =>
        line.toList ++ ['\n'] := by
  rw [report_eq]
  refine textLines_text fun line hline => ?_
  obtain ⟨expression, -, hline⟩ := List.mem_filterMap.1 hline
  exact (isLine_of_complaint hline).1

theorem textLines_output (settings : Settings) (expressions : List String) :
    textLines (report settings expressions).output.toList =
      (expressions.flatMap (outputLines settings)).map fun line => line.toList ++ ['\n'] := by
  rw [report_eq]
  exact textLines_text isLine_of_mem_flatMap

/-! ## Lists of tokens -/

theorem filter_outputLines (limit : Nat) (expression : String) :
    ((outputLines ⟨true, limit⟩ expression).filter fun line =>
      !"tokens: ".toList.isPrefixOf line.toList) = outputLines ⟨false, limit⟩ expression := by
  have htokens : ∀ line ∈ (tokenLine? limit expression).toList,
      "tokens: ".toList.isPrefixOf line.toList = true :=
    fun line hline => (isLine_of_tokenLine (Option.mem_toList.1 hline)).2
  have hvalue : ∀ line ∈ (valueLine? limit expression).toList,
      "tokens: ".toList.isPrefixOf line.toList = false :=
    fun line hline => (isLine_of_valueLine (Option.mem_toList.1 hline)).2
  rw [outputLines, outputLines, List.filter_append, if_pos rfl, List.filter_eq_nil_iff.2,
    List.filter_eq_self.2]
  · rfl
  · intro line hline
    rw [hvalue line hline]
    rfl
  · intro line hline
    rw [htokens line hline]
    decide

/-- **Lists of tokens.** They are lines of output on their own: without them the output is that of a
batch that lists no tokens. The failures and the complaints are the same with and without them. -/
theorem report_listsTokens (limit : Nat) (expressions : List String) :
    (report ⟨true, limit⟩ expressions).failures = (report ⟨false, limit⟩ expressions).failures ∧
    (report ⟨true, limit⟩ expressions).complaints = (report ⟨false, limit⟩ expressions).complaints ∧
    deleteLines "tokens: " (report ⟨true, limit⟩ expressions).output =
      (report ⟨false, limit⟩ expressions).output := by
  rw [report_eq, report_eq]
  refine ⟨rfl, rfl, ?_⟩
  dsimp only
  rw [deleteLines_text (by decide) isLine_of_mem_flatMap, List.filter_flatMap]
  congr 1
  exact List.flatMap_congr fun expression _ => filter_outputLines limit expression

/-! ## Numbers of lines -/

/-- The expression is read, and it has a value. -/
def succeeds (settings : Settings) (expression : String) : Bool :=
  expression.length ≤ settings.maxLength && (evaluate expression).outcome.isOk

/-- The expression is read, and it has tokens. -/
def hasTokens (settings : Settings) (expression : String) : Bool :=
  expression.length ≤ settings.maxLength && (tokenize expression).isOk

theorem isSome_complaint? (settings : Settings) (expression : String) :
    (complaint? settings.maxLength expression).isSome = !succeeds settings expression := by
  unfold complaint? succeeds
  split
  · rename_i hlong
    simp [Nat.not_le.2 hlong]
  · rename_i hlength
    cases (evaluate expression).outcome <;> simp [Nat.not_lt.1 hlength, Except.isOk, Except.toBool]

/-- One complaint for each expression that fails, the one that it makes alone. -/
theorem textLines_complaints_eq_map (settings : Settings) (expressions : List String) :
    textLines (report settings expressions).complaints.toList =
      (expressions.filter fun expression => !succeeds settings expression).map fun expression =>
        (report settings [expression]).complaints.toList := by
  rw [textLines_complaints]
  induction expressions with
  | nil => rfl
  | cons expression expressions ih =>
    rw [List.filter_cons, ← isSome_complaint?]
    cases hc : complaint? settings.maxLength expression with
    | none => rw [List.filterMap_cons_none hc, ih]; rfl
    | some line =>
      have halone : (report settings [expression]).complaints.toList = line.toList ++ ['\n'] := by
        simp [report_eq, hc, toList_text]
      rw [List.filterMap_cons_some hc, Option.isSome_some, if_pos rfl, List.map_cons, List.map_cons, ih,
        halone]

theorem length_outputLines (settings : Settings) (expression : String) :
    (outputLines settings expression).length = (if succeeds settings expression then 1 else 0) +
      if settings.listsTokens && hasTokens settings expression then 1 else 0 := by
  have hvalue : (valueLine? settings.maxLength expression).isSome = succeeds settings expression :=
    isSome_line? ..
  have htokens : (tokenLine? settings.maxLength expression).isSome = hasTokens settings expression :=
    isSome_line? ..
  rw [outputLines, List.length_append, Option.length_toList, hvalue, Nat.add_comm]
  cases settings.listsTokens with
  | false => rfl
  | true => rw [if_pos rfl, Option.length_toList, htokens, Bool.true_and]

theorem length_flatMap_outputLines (settings : Settings) (expressions : List String) :
    (expressions.flatMap (outputLines settings)).length =
      expressions.countP (succeeds settings) +
        if settings.listsTokens then expressions.countP (hasTokens settings) else 0 := by
  induction expressions with
  | nil => simp
  | cons expression expressions ih =>
    rw [List.flatMap_cons, List.length_append, length_outputLines, ih, List.countP_cons,
      List.countP_cons]
    cases settings.listsTokens with
    | false => simp only [Bool.false_and, Bool.false_eq_true, if_false]; omega
    | true => simp only [Bool.true_and, if_true]; omega

/-- **Lines of a report.** The complaints are whole lines, one for each expression that fails, in their
order, each as the expression alone makes it, and as many as there are failures. The output is whole
lines too, one for each value and, where tokens are listed, one for each expression that has tokens. -/
theorem report_lines (settings : Settings) (expressions : List String) :
    let complaints := textLines (report settings expressions).complaints.toList
    let output := textLines (report settings expressions).output.toList
    (∀ line ∈ complaints, line.getLast? = some '\n' ∧ "error: ".toList <+: line) ∧
    complaints.length = (report settings expressions).failures ∧
    complaints = (expressions.filter fun expression => !succeeds settings expression).map
      (fun expression => (report settings [expression]).complaints.toList) ∧
    (∀ line ∈ output, line.getLast? = some '\n') ∧
    output.length = expressions.countP (succeeds settings) +
      if settings.listsTokens then expressions.countP (hasTokens settings) else 0 := by
  have hcomplaints := textLines_complaints settings expressions
  have houtput := textLines_output settings expressions
  refine ⟨?complaint, ?failures, textLines_complaints_eq_map settings expressions, ?line, ?number⟩
  case complaint =>
    intro line hline
    rw [hcomplaints] at hline
    obtain ⟨written, hwritten, rfl⟩ := List.mem_map.1 hline
    obtain ⟨expression, -, hcomplaint⟩ := List.mem_filterMap.1 hwritten
    exact ⟨List.getLast?_concat, (isLine_of_complaint hcomplaint).2.trans (List.prefix_append ..)⟩
  case failures => rw [hcomplaints, List.length_map, report_eq]
  case line =>
    intro line hline
    rw [houtput] at hline
    obtain ⟨written, -, rfl⟩ := List.mem_map.1 hline
    exact List.getLast?_concat
  case number => rw [houtput, List.length_map, length_flatMap_outputLines]

/-- The line feeds of an expression are not in what is reported of it. -/
example :
    report ⟨true, 8⟩ ["1\n+\n1", "2\n&3", "1/0", "123456789"] =
      { failures := 3
        output := "tokens: [Number(1.0), Plus, Number(1.0)] (1+1)\n2\n" ++
          "tokens: [Number(1.0), Divide, Number(0.0)] (1/0)\n"
        complaints := "error: Unknown character '&' at position 2.\n" ++
          "error: Division by 0 is undefined.\n" ++
          "error: Expression is 9 characters long; the limit is 8.\n" } := by
  decide +kernel

end Calculator.Batch
