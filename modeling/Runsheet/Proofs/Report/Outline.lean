/-
The outline of a report: the headings of its steps and the edges of its
box, in order. What else a report holds are empty rows and body lines.
So whoever asks which rows are of a kind that takes in neither of the
two need only look at the outline (`Partition.filter_rows`), and there
the answer is at hand: the headings of one mark are those of the steps
it stands for, numbered from where their group begins, and the edges
are two for a failed step.
-/
import Mathlib.Data.List.Basic
import Runsheet.Report.Basic

namespace Runsheet

-- ======================================================== kinds of rows

namespace Row

/-- Whether a row is a heading or an edge. -/
def isOutline : Row → Bool
  | .edge => true
  | .heading _ _ _ => true
  | _ => false

/-- Whether a row is a heading with a mark. -/
def isHeading (mark : Mark) : Row → Bool
  | .heading m _ _ => m = mark
  | _ => false

/-- Whether a row is an edge. -/
def isEdge : Row → Bool
  | .edge => true
  | _ => false

theorem isOutline_of_isHeading {mark : Mark} {row : Row} (h : row.isHeading mark = true) :
    row.isOutline = true := by
  cases row with
  | heading m number title => rfl
  | gap => cases h
  | edge => cases h
  | detail l => cases h

theorem isOutline_of_isEdge {row : Row} (h : row.isEdge = true) : row.isOutline = true := by
  cases row with
  | edge => rfl
  | gap => cases h
  | heading m number title => cases h
  | detail l => cases h

end Row

-- ========================================================= the outline

/-- The headings of neighbouring steps of one mark, numbered from
`number`. -/
def headings (mark : Mark) (number : Nat) (steps : List Step) : List Row :=
  (steps.zipIdx number).map fun e => .heading mark e.2 e.1.title

namespace Partition

/-- The headings of a report, the failed one between its edges. -/
def outline (p : Partition Step) : List Row :=
  headings .done 1 p.done
    ++ (p.failed.zipIdx (p.done.length + 1)).flatMap
        (fun e => [.edge, .heading .failed e.2 e.1.title, .edge])
    ++ headings .todo (p.done.length + p.failed.length + 1) p.todo

end Partition

/-- Of a step, the outline keeps the heading. -/
theorem filter_isOutline_step (mark : Mark) (number : Nat) (s : Step) :
    (s.rows mark number).filter Row.isOutline = [.heading mark number s.title] := by
  have hbody : (s.body.map Row.detail).filter Row.isOutline = [] := by
    refine List.filter_eq_nil_iff.2 fun row hrow => ?_
    obtain ⟨l, -, rfl⟩ := List.mem_map.1 hrow
    exact Bool.false_ne_true
  rw [Step.rows, List.filter_cons_of_pos rfl, hbody]

/-- Of neighbouring steps, it keeps the headings. -/
theorem filter_isOutline_stepRows (mark : Mark) (number : Nat) (steps : List Step) :
    (stepRows mark number steps).filter Row.isOutline = headings mark number steps := by
  rw [stepRows, List.filter_flatMap, headings, List.map_eq_flatMap]
  exact List.flatMap_congr fun e _ => filter_isOutline_step mark e.2 e.1

namespace Partition

/-- Of a whole report, it keeps what `outline` lists. -/
theorem filter_isOutline_rows (p : Partition Step) :
    p.rows.filter Row.isOutline = p.outline := by
  -- part by part: the box keeps its edges, the parting and the two ends are empty rows
  have hbox : p.boxRows.filter Row.isOutline
      = (p.failed.zipIdx (p.done.length + 1)).flatMap
          fun e => [.edge, .heading .failed e.2 e.1.title, .edge] := by
    rw [boxRows, List.filter_flatMap]
    refine List.flatMap_congr fun e _ => ?_
    rw [List.filter_append, List.filter_append, filter_isOutline_step]
    rfl
  have hparting : p.parting.filter Row.isOutline = [] := by
    unfold parting
    split <;> rfl
  have hgap : [Row.gap].filter Row.isOutline = [] := rfl
  unfold rows
  rw [← List.singleton_append, List.filter_append, List.filter_append, List.filter_append,
    List.filter_append, List.filter_append, hgap, filter_isOutline_stepRows, hbox, hparting,
    filter_isOutline_stepRows, List.nil_append, List.append_nil, List.append_nil]
  rfl

/-- Rows of a kind that no empty row and no body line is of are found in
the outline. -/
theorem filter_rows {q : Row → Bool} (hq : ∀ row, q row = true → row.isOutline = true)
    (p : Partition Step) : p.rows.filter q = p.outline.filter q := by
  rw [← filter_isOutline_rows, List.filter_filter]
  refine List.filter_congr fun row _ => ?_
  rw [Bool.eq_iff_iff, Bool.and_eq_true, iff_self_and]
  exact hq row

end Partition

/-- If a look tells a kind of row, the lines that look so are the texts of
the rows of that kind. -/
theorem filter_map_text {width : Nat} {look : Text → Bool} {q : Row → Bool}
    (h : ∀ row : Row, look (row.text width) = q row) (rows : List Row) :
    (rows.map (Row.text width)).filter look = (rows.filter q).map (Row.text width) := by
  rw [List.filter_map]
  congr 1
  exact List.filter_congr fun row _ => h row

-- ==================================================== one kind at a time

section

variable {mark : Mark} {q : Row → Bool}

-- A kind of row takes in all headings of a mark or none of them: it does not
-- go by number or title.

/-- A test that holds for every heading of one mark keeps them all. -/
theorem filter_headings_of_pos (hq : ∀ number title, q (.heading mark number title) = true)
    (number : Nat) (steps : List Step) :
    (headings mark number steps).filter q = headings mark number steps := by
  refine List.filter_eq_self.2 fun row hrow => ?_
  obtain ⟨e, -, rfl⟩ := List.mem_map.1 hrow
  exact hq e.2 e.1.title

theorem filter_headings_of_neg (hq : ∀ number title, q (.heading mark number title) = false)
    (number : Nat) (steps : List Step) : (headings mark number steps).filter q = [] := by
  refine List.filter_eq_nil_iff.2 fun row hrow => ?_
  obtain ⟨e, -, rfl⟩ := List.mem_map.1 hrow
  exact Bool.eq_false_iff.1 (hq e.2 e.1.title)

end

namespace Partition

/-- The headings of done steps. -/
theorem filter_isHeading_done (p : Partition Step) :
    p.rows.filter (Row.isHeading .done) = headings .done 1 p.done := by
  have hbox : (p.failed.zipIdx (p.done.length + 1)).flatMap (fun e =>
      [Row.edge, .heading .failed e.2 e.1.title, .edge].filter (Row.isHeading .done)) = [] :=
    List.flatMap_eq_nil_iff.2 fun _ _ => rfl
  rw [filter_rows (fun _ => Row.isOutline_of_isHeading), outline, List.filter_append,
    List.filter_append, filter_headings_of_pos fun _ _ => rfl, List.filter_flatMap, hbox,
    filter_headings_of_neg fun _ _ => rfl, List.append_nil, List.append_nil]

/-- The headings of failed steps. -/
theorem filter_isHeading_failed (p : Partition Step) :
    p.rows.filter (Row.isHeading .failed) = headings .failed (p.done.length + 1) p.failed := by
  have hbox : ∀ e : Step × Nat,
      [Row.edge, .heading .failed e.2 e.1.title, .edge].filter (Row.isHeading .failed)
        = [.heading .failed e.2 e.1.title] :=
    fun _ => rfl
  rw [filter_rows (fun _ => Row.isOutline_of_isHeading), outline, List.filter_append,
    List.filter_append, filter_headings_of_neg fun _ _ => rfl, List.filter_flatMap,
    filter_headings_of_neg fun _ _ => rfl, headings, List.map_eq_flatMap]
  simp only [hbox, List.nil_append, List.append_nil]

/-- Two edges for a failed step. -/
theorem filter_isEdge (p : Partition Step) :
    p.rows.filter Row.isEdge = p.failed.flatMap fun _ => [.edge, .edge] := by
  have hbox : ∀ e : Step × Nat,
      [Row.edge, .heading .failed e.2 e.1.title, .edge].filter Row.isEdge = [.edge, .edge] :=
    fun _ => rfl
  have hzip : ∀ number, (p.failed.zipIdx number).flatMap (fun _ => [Row.edge, .edge])
      = p.failed.flatMap fun _ => [.edge, .edge] := by
    intro number
    rw [← List.flatMap_map Prod.fst fun _ => [Row.edge, .edge], List.zipIdx_map_fst]
  rw [filter_rows (fun _ => Row.isOutline_of_isEdge), outline, List.filter_append,
    List.filter_append, filter_headings_of_neg fun _ _ => rfl, List.filter_flatMap,
    filter_headings_of_neg fun _ _ => rfl]
  simp only [hbox, hzip, List.nil_append, List.append_nil]

end Partition

end Runsheet
