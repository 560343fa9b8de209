/-
The colours of a report. The console sees a report as text and finds out
from the look of each line what it shows. It is never wrong: green is
the header line of every done step and nothing else, bold red that of
the failed step, red the two edges of its box, and every other line
stays as it is. That holds whatever titles and bodies say, be it a mark
or a row of dashes.

# Why looks do not deceive

A line is told by its first character. Nothing of a step stands there:
a heading opens with its own mark or with a blank, a body line with a
blank or not at all. Only an edge opens with a dash, and it holds
nothing else. So the styles of a line are those of the row that it is
the text of, one kind of row at a time (`Row.lineStyles_text`), and what
a kind of row stands for is known from the outline of a report.

# Lines stay lines

A style adds codes, and no code holds a line feed. As taking the codes
out again takes no line feed out, a line in its styles has as many of
them as the line itself, that is none (`Style.feed_mem_paint_iff`). So
the coloured report falls into lines where the report does.
-/
import Runsheet.Proofs.Colour
import Runsheet.Proofs.Report.Outline
import Runsheet.Proofs.Report.Reference

namespace Runsheet

-- ============================================================ the looks

/-- The styles of a heading by its mark. -/
def Mark.styles : Mark → List Style
  | .done => [.green]
  | .failed => [.red, .bold]
  | .todo => []

/-- The styles of a row by what it shows. -/
def Row.styles : Row → List Style
  | .heading mark _ _ => mark.styles
  | .edge => [.red]
  | _ => []

/-- What the console prints for a row: its text in its styles, and the
text as it is for a row without one. -/
def Row.painted (width : Nat) (row : Row) : Text :=
  if row.styles = [] then row.text width else Style.paint row.styles (row.text width)

namespace Console

/-- Behind a blank, no test of a line holds. -/
theorem lineStyles_blank (t : Text) : lineStyles (' ' :: t) = [] := by
  simp [lineStyles, Mark.marker]

/-- An edge is red, whatever its width. -/
theorem lineStyles_dashes {width : Nat} (hw : 0 < width) :
    lineStyles (List.replicate width '-') = [.red] := by
  obtain ⟨n, rfl⟩ := Nat.exists_eq_succ_of_ne_zero (Nat.ne_of_gt hw)
  simp [lineStyles, Mark.marker, List.replicate_succ]

end Console

/-- The look of a row tells what it shows. -/
theorem Row.lineStyles_text {width : Nat} (hw : 0 < width) (row : Row) :
    Console.lineStyles (row.text width) = row.styles := by
  cases row with
  | gap => rfl
  | edge => exact Console.lineStyles_dashes hw
  | heading mark number title =>
      rw [Row.text, atColumn_of_lt mark.length_marker_lt]
      cases mark with
      | done => rfl
      | failed => rfl
      | todo => exact Console.lineStyles_blank _
  | detail l =>
      cases hl : l.allBlank with
      | true =>
          rw [Row.text_detail_of_allBlank width hl]
          rfl
      | false =>
          rw [Row.text_detail_of_not_allBlank width hl]
          exact Console.lineStyles_blank _

/-- A row is printed in its styles. -/
theorem Row.paintLine_text {width : Nat} (hw : 0 < width) (row : Row) :
    Console.paintLine true (row.text width) = row.painted width := by
  rw [Console.paintLine, Row.painted, Row.lineStyles_text hw]
  simp only [List.isEmpty_iff]
  rfl

-- ====================================================== lines stay lines

/-- Taking codes out leaves all line feeds in. -/
theorem feed_mem_unstyled_iff (t : Text) : '\n' ∈ unstyled t ↔ '\n' ∈ t := by
  fun_induction unstyled t with
  | case1 => exact Iff.rfl
  | case2 c t rest hcode _ ih =>
      obtain ⟨n, ht, hn⟩ := afterCode?_eq_some_iff.1 hcode
      have hdigits : '\n' ∉ n := fun hmem => by
        have := hn.all_mem _ hmem
        cases this
      rw [ih, ht]
      simp [hdigits, escape]
  | case3 c t hcode ih => rw [List.mem_cons, List.mem_cons, ih]

/-- Codes hold no line feed, so painting brings none and takes none away. -/
theorem Style.feed_mem_paint_iff (styles : List Style) (t : Text) :
    '\n' ∈ paint styles t ↔ '\n' ∈ t := by
  rw [← feed_mem_unstyled_iff, unstyled_paint, feed_mem_unstyled_iff]

/-- A row of one line is painted in one line. -/
theorem Row.not_mem_painted {width : Nat} {row : Row} (h : '\n' ∉ row.text width) :
    '\n' ∉ row.painted width := by
  unfold Row.painted
  split
  · exact h
  · exact fun hmem => h ((Style.feed_mem_paint_iff _ _).1 hmem)

-- ================================================== what colours tell

/-- Each mark has a look of its own. -/
theorem Mark.styles_inj {m mark : Mark} : m.styles = mark.styles ↔ m = mark := by
  cases m <;> cases mark <;> decide

/-- The styles of a mark are those of its headings alone. -/
theorem Row.styles_eq_mark_iff (mark : Mark) (hmark : mark ≠ .todo) (row : Row) :
    row.styles = mark.styles ↔ row.isHeading mark = true := by
  have hne : [] ≠ mark.styles := fun h => hmark (Mark.styles_inj (m := .todo).1 h).symm
  have hedge : [.red] ≠ mark.styles := by cases mark <;> decide
  cases row with
  | gap => exact iff_of_false hne Bool.false_ne_true
  | edge => exact iff_of_false hedge Bool.false_ne_true
  | heading m number title => exact Mark.styles_inj.trans decide_eq_true_iff.symm
  | detail l => exact iff_of_false hne Bool.false_ne_true

/-- Nothing but an edge is plain red: a failed heading is bold as well. -/
theorem Row.styles_eq_edge_iff (row : Row) : row.styles = [.red] ↔ row.isEdge = true := by
  cases row with
  | gap => exact iff_of_false nofun Bool.false_ne_true
  | edge => exact iff_of_true rfl rfl
  | heading mark number title => cases mark <;> exact iff_of_false nofun Bool.false_ne_true
  | detail l => exact iff_of_false nofun Bool.false_ne_true

/-- Lines in the styles of a kind of row are the texts of rows of that
kind. -/
theorem filter_lineStyles {width : Nat} (hw : 0 < width) {styles : List Style}
    {q : Row → Bool} (hq : ∀ row : Row, row.styles = styles ↔ q row = true)
    (rows : List Row) :
    (rows.map (Row.text width)).filter (Console.lineStyles · = styles)
      = (rows.filter q).map (Row.text width) := by
  apply filter_map_text
  intro row
  rw [Row.lineStyles_text hw, Bool.eq_iff_iff, decide_eq_true_iff]
  exact hq row

/-- The headings among the rows, as the header lines of the steps. -/
theorem map_text_headings (width : Nat) (mark : Mark) (number : Nat) (steps : List Step) :
    (headings mark number steps).map (Row.text width)
      = (steps.zipIdx number).map fun e => e.1.headerLine mark e.2 := by
  rw [headings, List.map_map]
  exact List.map_congr_left fun e _ => Row.text_heading width mark e.2 e.1

/-- The lines of a report and what the console prints for them, as the
partition that the report shows has it. -/
structure ColouredByClass (p : Partition Step) (width : Nat) (lines painted : List Text) :
    Prop where
  /-- The lines are the rows of the report. -/
  lines_eq : lines = p.rows.map (Row.text width)
  /-- A line looks like what its row shows. -/
  lineStyles_eq : lines.map Console.lineStyles = p.rows.map Row.styles
  /-- For a row its text is printed in the styles of what it shows, and
  as it is if it has none. -/
  painted_eq : painted = p.rows.map (Row.painted width)
  /-- The lines that look green are the header lines of the done steps. -/
  green : lines.filter (Console.lineStyles · = [.green])
    = (p.done.zipIdx 1).map fun e => e.1.headerLine .done e.2
  /-- The line that looks bold red is the header line of the failed step. -/
  boldRed : lines.filter (Console.lineStyles · = [.red, .bold])
    = (p.failed.zipIdx (p.done.length + 1)).map fun e => e.1.headerLine .failed e.2
  /-- The lines that look red are the two edges around it. -/
  red : lines.filter (Console.lineStyles · = [.red])
    = p.failed.flatMap fun _ => [List.replicate width '-', List.replicate width '-']

/-- A report is printed row by row. -/
theorem splitOn_paintReport {ref : List Step} (h : ∀ s ∈ ref, ∀ l ∈ s.lines, '\n' ∉ l)
    (rec : List Step) (status : Status) :
    (Console.paintReport true (report ref rec status)).splitOn '\n'
      = (Partition.ofRun ref rec status).rows.map (Row.painted (boxWidth ref)) := by
  have hpainted : Console.paintLine true ∘ Row.text (boxWidth ref)
      = Row.painted (boxWidth ref) :=
    funext (Row.paintLine_text (boxWidth_pos ref))
  rw [Console.paintReport, splitOn_report h, List.map_map, hpainted]
  refine List.splitOn_intercalate '\n' (fun l hl => ?_) (by simp [Partition.rows_ne_nil])
  obtain ⟨row, hrow, rfl⟩ := List.mem_map.1 hl
  refine Row.not_mem_painted (Partition.not_mem_rows _ ?_ row hrow)
  rw [Partition.all_ofRun]
  exact h

/-- The colours of a report follow what became of its steps, whatever their
titles and bodies hold. -/
theorem report_coloured_by_class {ref : List Step}
    (h : ∀ s ∈ ref, ∀ l ∈ s.lines, '\n' ∉ l) (rec : List Step) (status : Status) :
    ColouredByClass (Partition.ofRun ref rec status) (boxWidth ref)
      ((report ref rec status).splitOn '\n')
      ((Console.paintReport true (report ref rec status)).splitOn '\n') := by
  have hw := boxWidth_pos ref
  have hdone : ∀ row : Row, row.styles = [.green] ↔ row.isHeading .done = true :=
    Row.styles_eq_mark_iff .done (by decide)
  have hfailed : ∀ row : Row, row.styles = [.red, .bold] ↔ row.isHeading .failed = true :=
    Row.styles_eq_mark_iff .failed (by decide)
  -- a line is looked at in the report, and a row in the partition
  have hlook : Console.lineStyles ∘ Row.text (boxWidth ref) = Row.styles :=
    funext (Row.lineStyles_text hw)
  refine ⟨splitOn_report h rec status, ?_, splitOn_paintReport h rec status, ?_, ?_, ?_⟩
  · rw [splitOn_report h, List.map_map, hlook]
  · rw [splitOn_report h, filter_lineStyles hw hdone, Partition.filter_isHeading_done,
      map_text_headings]
  · rw [splitOn_report h, filter_lineStyles hw hfailed, Partition.filter_isHeading_failed,
      map_text_headings]
  · rw [splitOn_report h, filter_lineStyles hw Row.styles_eq_edge_iff,
      Partition.filter_isEdge, List.map_flatMap]
    rfl

/-- Titles and body lines that look like marks and rules, in all colours. -/
theorem report_coloured_by_class_looks :
    let ref : List Step := [⟨"1. ✓ Open".toList, ["---".toList, "✓".toList]⟩,
      ⟨"1. ---".toList, ["✕   2. Wait ✕".toList, []]⟩, ⟨"✕ Close".toList, []⟩]
    let coloured := Console.paintReport true (report ref (ref.take 1) .fail)
    (∀ s ∈ ref, ∀ l ∈ s.lines, '\n' ∉ l)
      ∧ coloured.splitOn '\n'
          = [[], "\x1b[32m✓   1. ✓ Open\x1b[39m".toList, "    ---".toList, "    ✓".toList, [],
            "\x1b[31m---------------\x1b[39m".toList,
            "\x1b[31m\x1b[1m✕   2. --- ✕\x1b[22m\x1b[39m".toList,
            "    ✕   2. Wait ✕".toList, [], "\x1b[31m---------------\x1b[39m".toList, [],
            "    3. ✕ Close".toList, []] := by
  intro ref coloured
  have h : ∀ s ∈ ref, ∀ l ∈ s.lines, '\n' ∉ l := by decide
  have hcoloured := report_coloured_by_class h (ref.take 1) .fail
  exact ⟨h, hcoloured.painted_eq.trans (by decide +kernel)⟩

end Runsheet
