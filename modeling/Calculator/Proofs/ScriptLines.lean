import Mathlib.Data.List.TakeWhile
import Calculator.CommandLine
import Calculator.Proofs.Reports

/-!
# The lines of a script

A listing is read as the lines that it was written with, be they ended by a line feed or by a carriage
return and a line feed. `report_listing`: to run it is to run each of its lines alone, one after the
other, without those that are blank.
-/

namespace Calculator

namespace Script

/-! ## Lines as they are read -/

theorem lines_nil : lines [] = [] := by
  rw [lines]
  rfl

theorem bne_feed {line : List Char} (h : '\n' ∉ line) : ∀ c ∈ line, (c != '\n') = true := by
  intro c hc
  rw [bne_iff_ne]
  rintro rfl
  exact h hc

theorem lines_append {line : List Char} (h : '\n' ∉ line) (rest : List Char) :
    lines (line ++ '\n' :: rest) = dropFinalReturn line :: lines rest := by
  have htake : (line ++ '\n' :: rest).takeWhile (· != '\n') = line := by
    rw [List.takeWhile_append_of_pos (bne_feed h)]
    simp
  have hdrop : (line ++ '\n' :: rest).dropWhile (· != '\n') = '\n' :: rest := by
    rw [List.dropWhile_append_of_pos (bne_feed h)]
    simp
  rw [lines, if_neg (by simp)]
  dsimp only
  split
  · rename_i hend
    rw [hdrop] at hend
    cases hend
  · rename_i hrest
    rw [hdrop] at hrest
    cases hrest
    rw [htake]

theorem lines_last {line : List Char} (h : '\n' ∉ line) :
    lines line = if line.isEmpty then [] else [line] := by
  rw [lines]
  split
  · rfl
  · dsimp only
    split
    · rw [List.takeWhile_eq_self_iff.2 (bne_feed h)]
    · rename_i hrest
      rw [List.dropWhile_eq_nil_iff.2 (bne_feed h)] at hrest
      cases hrest

theorem dropFinalReturn_of_ne {line : List Char} (h : line.getLast? ≠ some '\r') :
    dropFinalReturn line = line :=
  if_neg h

theorem dropFinalReturn_concat (line : List Char) : dropFinalReturn (line ++ ['\r']) = line := by
  rw [dropFinalReturn, if_pos List.getLast?_concat, List.dropLast_concat]

/-! ## Lines as they are written -/

/-- A text that ends where a line ends only. -/
structure IsPlain (line : String) : Prop where
  noFeed : '\n' ∉ line.toList
  noFinalReturn : line.toList.getLast? ≠ some '\r'

instance (line : String) : Decidable (IsPlain line) :=
  decidable_of_iff ('\n' ∉ line.toList ∧ line.toList.getLast? ≠ some '\r')
    ⟨fun h => ⟨h.1, h.2⟩, fun h => ⟨h.noFeed, h.noFinalReturn⟩⟩

/-- The script is made of the lines, each with its end. The last one may go without. -/
inductive Written : List String → String → Prop
  | nothing : Written [] ""
  | last (line : String) : Written [line] line
  | line (line : String) {ending rest : String} {others : List String}
      (hending : ending = "\n" ∨ ending = "\r\n") (hothers : Written others rest) :
      Written (line :: others) (line ++ ending ++ rest)

/-- The line is not blank. -/
def holdsText (line : String) : Bool := line.toList.any fun c => !isWhiteSpace c

theorem expressions_listing (text : String) :
    (listing text).expressions = ((lines text.toList).map String.ofList).filter holdsText := by
  rw [expressions, List.filter_map]
  congr 1
  refine List.filter_congr fun line _ => ?_
  simp [holdsText, List.not_all_eq_any_not]

theorem expressions_append {line ending : String} (hline : IsPlain line)
    (hending : ending = "\n" ∨ ending = "\r\n") (rest : String) :
    (listing (line ++ ending ++ rest)).expressions =
      [line].filter holdsText ++ (listing rest).expressions := by
  have hlines : lines (line ++ ending ++ rest).toList = line.toList :: lines rest.toList := by
    rw [String.toList_append, String.toList_append]
    rcases hending with rfl | rfl
    · have hread := lines_append hline.noFeed rest.toList
      rw [dropFinalReturn_of_ne hline.noFinalReturn] at hread
      simpa using hread
    · -- the carriage return is read as a part of the line, and then dropped from it
      have hreturn : '\n' ∉ line.toList ++ ['\r'] := by simp [hline.noFeed]
      have hread := lines_append hreturn rest.toList
      rw [dropFinalReturn_concat] at hread
      simpa using hread
  rw [expressions_listing, hlines, expressions_listing, ← List.filter_append, List.map_cons,
    String.ofList_toList, List.singleton_append]

theorem expressions_last {line : String} (hline : IsPlain line) :
    (listing line).expressions = [line].filter holdsText := by
  rw [expressions_listing, lines_last hline.noFeed]
  split
  · rename_i hempty
    -- an empty line at the end is not read as one, but it is blank anyway
    have hblank : holdsText line = false := by
      rw [holdsText, List.isEmpty_iff.1 hempty, List.any_nil]
    rw [List.filter_cons, hblank]
    rfl
  · rw [List.map_singleton, String.ofList_toList]

theorem expressions_of_written {script : String} {written : List String}
    (hscript : Written written script) (hwritten : ∀ line ∈ written, IsPlain line) :
    (listing script).expressions = written.filter holdsText := by
  induction hscript with
  | nothing =>
    rw [expressions_listing, String.toList_empty, lines_nil]
    rfl
  | last line => exact expressions_last (hwritten line (List.mem_singleton_self line))
  | line line hending _ ih =>
    obtain ⟨hline, hothers⟩ := List.forall_mem_cons.1 hwritten
    rw [expressions_append hline hending, ih hothers, ← List.filter_append, List.singleton_append]

end Script

/-! ## Scripts in files -/

section
variable {m : Type → Type} [Monad m] [LawfulMonad m]
  {readArguments : List String → Except Outcome Arguments}
  {readFile : String → m (Except ReadFailure String)}

theorem run_listing {arguments : List String} {settings : Settings} {path script : String}
    (harguments : readArguments arguments = .ok { settings with fromFile := true, contents := path })
    (hread : readFile path = pure (.ok script)) :
    run readArguments readFile arguments = pure
      (Outcome.ofReport (Batch.report settings (Script.listing script).expressions)) := by
  simp [run, harguments, Arguments.run, hread]

end

theorem exitCode_ofReport (report : Report) :
    (Outcome.ofReport report).exitCode = 0 ↔ report.failures = 0 := by
  rw [Outcome.ofReport]
  split <;> simp [*]

/-- **Listings by lines.** The expressions of a script are its lines that are not blank, and the report
on it is what these lines report as single expressions, put together. With that report the program ends
when its arguments name a file that holds the script, and its exit code is 0 if and only if no line has
failed. -/
theorem report_listing {script : String} {written : List String}
    (hscript : Script.Written written script) (hwritten : ∀ line ∈ written, Script.IsPlain line)
    (settings : Settings) :
    let alone := (written.filter Script.holdsText).map fun line =>
      Batch.report settings (Script.single line).expressions
    (Script.listing script).expressions = written.filter Script.holdsText ∧
    Batch.report settings (Script.listing script).expressions = Report.join alone ∧
    ∀ {m : Type → Type} [Monad m] [LawfulMonad m]
      (readArguments : List String → Except Outcome Arguments)
      (readFile : String → m (Except ReadFailure String)) (arguments : List String) (path : String),
      readArguments arguments = .ok { settings with fromFile := true, contents := path } →
      readFile path = pure (.ok script) →
      ∃ outcome : Outcome, run readArguments readFile arguments = pure outcome ∧
        outcome.output = String.join (alone.map Report.output) ∧
        outcome.complaints = String.join (alone.map Report.complaints) ∧
        (outcome.exitCode = 0 ↔ (alone.map Report.failures).sum = 0) := by
  intro alone
  have hexpressions := Script.expressions_of_written hscript hwritten
  have hreport : Batch.report settings (Script.listing script).expressions = Report.join alone := by
    rw [hexpressions]
    exact Batch.report_eq_join settings _
  refine ⟨hexpressions, hreport, ?_⟩
  intro m _ _ readArguments readFile arguments path harguments hread
  refine ⟨Outcome.ofReport (Report.join alone), ?_, rfl, rfl, exitCode_ofReport _⟩
  rw [run_listing harguments hread, hreport]

/-- A reader that knows the meaning of one list of arguments and refuses any other. -/
def readKnown (known : List String) (arguments : Arguments) (given : List String) :
    Except Outcome Arguments :=
  if given = known then .ok arguments else .error ⟨2, "", ""⟩

/-- Ends of lines of both kinds, and none behind the last line. The blank line makes no failure, and the
division by zero does not keep the line behind it from its value. -/
theorem report_listing_mixed_ends :
    (Script.listing "1+1\r\n \n5/0\n2*3").expressions = ["1+1", "5/0", "2*3"] ∧
    ∃ outcome : Outcome,
      run (m := Id) (readKnown ["-f", "sums.txt"] { fromFile := true, contents := "sums.txt" })
        (fun _ => pure (.ok "1+1\r\n \n5/0\n2*3")) ["-f", "sums.txt"] = pure outcome ∧
      outcome.output = "2\n6\n" ∧ outcome.complaints = "error: Division by 0 is undefined.\n" ∧
      outcome.exitCode ≠ 0 := by
  have hscript : Script.Written ["1+1", " ", "5/0", "2*3"] "1+1\r\n \n5/0\n2*3" :=
    .line "1+1" (.inr rfl) (.line " " (.inl rfl) (.line "5/0" (.inl rfl) (.last "2*3")))
  obtain ⟨hexpressions, -, hrun⟩ := report_listing hscript (by decide) {}
  obtain ⟨outcome, houtcome, houtput, hcomplaints, hcode⟩ :=
    hrun (m := Id) (readKnown ["-f", "sums.txt"] { fromFile := true, contents := "sums.txt" })
      (fun _ => pure (.ok "1+1\r\n \n5/0\n2*3")) ["-f", "sums.txt"] "sums.txt" rfl rfl
  refine ⟨hexpressions.trans (by decide), outcome, houtcome, houtput.trans (by decide +kernel),
    hcomplaints.trans (by decide +kernel), fun hzero => ?_⟩
  exact absurd (hcode.1 hzero) (by decide +kernel)

end Calculator
