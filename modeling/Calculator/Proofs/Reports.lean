import Mathlib.Algebra.GroupWithZero.Nat
import Calculator.Proofs.TextLines

/-!
# Reports

A batch adds one answer after the other to its report. `report_eq_summary`: what it has reported at the
end is determined by the list of the answers. `report_eq_join`: it is what the expressions report alone,
put together in their order.
-/

namespace Calculator

/-- Several reports as one, in their order. -/
def Report.join (reports : List Report) : Report where
  failures := (reports.map Report.failures).sum
  output := String.join (reports.map Report.output)
  complaints := String.join (reports.map Report.complaints)

namespace Batch

/-- What is reported of all answers together. -/
def summary (answers : List Answer) : Report where
  failures := (answers.filterMap Answer.failure?).length
  output := text (answers.flatMap Answer.lines)
  complaints := text ((answers.filterMap Answer.failure?).map complaint)

theorem add_summary (answers : List Answer) (answer : Answer) :
    add (summary answers) answer = summary (answers ++ [answer]) := by
  obtain ⟨lines, failure?⟩ := answer
  cases failure? with
  | none => simp [add, summary, text_append]
  | some failure => simp [add, summary, text_append]

theorem foldl_add_summary (answers others : List Answer) :
    others.foldl add (summary answers) = summary (answers ++ others) := by
  induction others generalizing answers with
  | nil => rw [List.foldl_nil, List.append_nil]
  | cons answer others ih =>
    rw [List.foldl_cons, add_summary, ih, List.append_assoc, List.singleton_append]

theorem report_eq_summary (settings : Settings) (expressions : List String) :
    report settings expressions = summary (expressions.map (answer settings)) := by
  rw [report, ← List.foldl_map]
  exact foldl_add_summary [] _

theorem summary_append (answers others : List Answer) :
    summary (answers ++ others) = Report.join [summary answers, summary others] := by
  simp [summary, Report.join, text_append]

theorem report_eq_join (settings : Settings) (expressions : List String) :
    report settings expressions =
      Report.join (expressions.map fun expression => report settings [expression]) := by
  simp only [report_eq_summary, List.map_cons, List.map_nil]
  induction expressions with
  | nil => rfl
  | cons expression expressions ih =>
    rw [List.map_cons, ← List.singleton_append, summary_append, ih]
    simp [Report.join]

end Batch

end Calculator
