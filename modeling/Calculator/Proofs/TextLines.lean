import Calculator.Batch

/-!
# The lines of a text

A text is read as lines, each with the line feed that ends it. `textLines_text`: lines that are written
one by one, none of which has a line feed of its own, are read again as they are.
-/

namespace Calculator

/-- The lines of a text, each with its line feed. What stands behind the last line feed is a line
without one. -/
def textLines : List Char → List (List Char)
  | [] => []
  | c :: rest =>
    if c = '\n' then [c] :: textLines rest
    else
      match textLines rest with
      | [] => [[c]]
      | line :: lines => (c :: line) :: lines

theorem flatten_textLines (text : List Char) : (textLines text).flatten = text := by
  induction text with
  | nil => rfl
  | cons c rest ih =>
    rw [textLines]
    split
    · simp [ih]
    · split
      · rename_i hnone
        rw [hnone] at ih
        simp [← ih]
      · rename_i line lines hlines
        rw [hlines] at ih
        simp [← ih]

theorem textLines_append {line : List Char} (h : '\n' ∉ line) (rest : List Char) :
    textLines (line ++ '\n' :: rest) = (line ++ ['\n']) :: textLines rest := by
  induction line with
  | nil => rw [List.nil_append, textLines, if_pos rfl, List.nil_append]
  | cons c line ih =>
    have hc : c ≠ '\n' := fun heq => h (heq ▸ List.mem_cons_self ..)
    have hline : '\n' ∉ line := fun hmem => h (List.mem_cons_of_mem _ hmem)
    rw [List.cons_append, textLines, if_neg hc, ih hline, List.cons_append]

/-! ## Written lines -/

/-- A text that is a line when a line feed is put behind it. -/
def IsLine (text : String) : Prop := '\n' ∉ text.toList

instance (text : String) : Decidable (IsLine text) := inferInstanceAs (Decidable ('\n' ∉ text.toList))

@[simp] theorem isLine_append {first second : String} :
    IsLine (first ++ second) ↔ IsLine first ∧ IsLine second := by
  simp [IsLine]

namespace Batch

theorem toList_text (lines : List String) :
    (text lines).toList = lines.flatMap fun line => line.toList ++ ['\n'] := by
  simp [text, List.flatMap_map]

theorem text_append (lines others : List String) :
    text (lines ++ others) = text lines ++ text others := by
  rw [text, List.map_append, String.join_append]
  rfl

theorem textLines_text {lines : List String} (h : ∀ line ∈ lines, IsLine line) :
    textLines (text lines).toList = lines.map fun line => line.toList ++ ['\n'] := by
  rw [toList_text]
  induction lines with
  | nil => rfl
  | cons line lines ih =>
    obtain ⟨hline, hlines⟩ := List.forall_mem_cons.1 h
    rw [List.flatMap_cons, List.append_assoc, List.singleton_append, textLines_append hline,
      ih hlines, List.map_cons]

end Batch

/-! ## Deleted lines -/

/-- The text without the lines that begin with `start`. -/
def deleteLines (start text : String) : String :=
  String.ofList ((textLines text.toList).filter fun line => !start.toList.isPrefixOf line).flatten

theorem isPrefixOf_line {start : List Char} (h : '\n' ∉ start) (line : List Char) :
    start.isPrefixOf (line ++ ['\n']) = start.isPrefixOf line := by
  rw [Bool.eq_iff_iff, List.isPrefixOf_iff_prefix, List.isPrefixOf_iff_prefix,
    List.prefix_concat_iff]
  refine or_iff_right fun heq => h ?_
  simp [heq]

theorem deleteLines_text {start : String} (hstart : IsLine start) {lines : List String}
    (h : ∀ line ∈ lines, IsLine line) :
    deleteLines start (Batch.text lines) =
      Batch.text (lines.filter fun line => !start.toList.isPrefixOf line.toList) := by
  rw [← String.toList_inj, deleteLines, String.toList_ofList, Batch.textLines_text h,
    Batch.toList_text, List.filter_map, ← List.flatMap_def]
  simp only [Function.comp_def, isPrefixOf_line hstart]

end Calculator
