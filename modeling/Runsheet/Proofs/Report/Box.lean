/-
The box of a report. The two edges around the failed step are as long
as the longest line the report shows of any step, and two more for the
mark at the end of the failed heading. So nothing that a report shows
reaches beyond its box; the box is no longer than it must be; and since
it is measured on the reference alone, the same sequence has the same
box, wherever a run of it failed.

# Two numberings that agree

The width is that of the reference numbered from 1 as a whole. A report
numbers its three groups one behind the other. By `kept_rows_eq_flatMap`
every step has the same number in both, so each heading that is shown
was measured as it is shown, with all its digits, and the longest line
of all is among them, or is a body line. A blank body line is measured
too, although it is shown empty: it can make the box longer, and never
too short.
-/
import Runsheet.Proofs.Report.Outline
import Runsheet.Proofs.Report.Reading
import Runsheet.Proofs.Report.Reference

namespace Runsheet

-- ======================================================== what is shown

/-- A line made of dashes alone. -/
def isRule (line : Text) : Bool := !line.isEmpty && isFiller line

/-- What a line shows of a step: what stands behind the first four
columns, and of a failed heading that without the mark at its end. -/
def shownPart (line : Text) : Text :=
  if Text.opensWith (· = '✕') line then (line.drop 4).take (line.length - 6)
  else line.drop 4

/-- What a heading shows is its number and title, less the marks at its ends.
-/
theorem shownPart_headerLine (mark : Mark) (number : Nat) (s : Step) :
    shownPart (s.headerLine mark number) = numbered number s.title := by
  cases mark with
  | done => rfl
  | failed =>
      have hopens : Text.opensWith (· = '✕') (s.headerLine .failed number) = true := rfl
      have hdrop : (s.headerLine .failed number).drop 4
          = numbered number s.title ++ " ✕".toList := rfl
      have hlen : (s.headerLine .failed number).length - 6
          = (numbered number s.title).length := by
        simp [Step.headerLine]
      rw [shownPart, if_pos hopens, hdrop, hlen]
      exact List.take_left
  | todo => rfl

/-- A line of a step shows its numbered title or one of its body lines. -/
theorem shownPart_of_mem_shownLines {mark : Mark} {number : Nat} {s : Step} {line : Text}
    (h : line ∈ s.shownLines mark number) :
    shownPart line ∈ numbered number s.title :: s.body := by
  rcases List.mem_cons.1 h with rfl | h
  · rw [shownPart_headerLine]
    exact List.mem_cons_self
  · obtain ⟨l, hl, rfl⟩ := List.mem_map.1 h
    exact List.mem_cons_of_mem _ (List.mem_filter.1 hl).1

-- ============================================================ the width

/-- All numbered titles and body lines of a reference. -/
def measured (ref : List Step) : List Text :=
  (ref.zipIdx 1).flatMap fun e => numbered e.2 e.1.title :: e.1.body

/-- The box is two wider than the longest text it measures. -/
theorem boxWidth_eq (ref : List Step) : boxWidth ref = longest (measured ref) + 2 := rfl

/-- A reference with a step has a text to measure: the header of that step.
-/
theorem measured_ne_nil {ref : List Step} (hne : ref ≠ []) : measured ref ≠ [] := by
  obtain ⟨s, ref, rfl⟩ := List.exists_cons_of_ne_nil hne
  exact List.cons_ne_nil _ _

/-- What a report shows of a step fits into its box. -/
theorem length_shownPart_le {ref : List Step} {e : Step × Nat} (he : e ∈ ref.zipIdx 1)
    {mark : Mark} {line : Text} (h : line ∈ e.1.shownLines mark e.2) :
    (shownPart line).length + 2 ≤ boxWidth ref := by
  have hmeasured : shownPart line ∈ measured ref :=
    List.mem_flatMap.2 ⟨e, he, shownPart_of_mem_shownLines h⟩
  have := length_le_longest hmeasured
  rw [boxWidth_eq]
  omega

-- ============================================================ the edges

/-- A rule opens with a dash. -/
theorem isRule_eq_false_of_head?_ne {line : Text} (h : line.head? ≠ some '-') :
    isRule line = false := by
  cases line with
  | nil => rfl
  | cons c t =>
      have hc : c ≠ '-' := fun hc => h (by rw [hc, List.head?_cons])
      rw [isRule, isFiller_eq_false hc, Bool.and_false]

/-- Among rows the edges alone are made of dashes. -/
theorem isRule_text {width : Nat} (hw : 0 < width) (row : Row) :
    isRule (row.text width) = row.isEdge := by
  cases row with
  | gap => rfl
  | edge =>
      obtain ⟨n, rfl⟩ := Nat.exists_eq_succ_of_ne_zero (Nat.ne_of_gt hw)
      simp [isRule, isFiller, Row.text, Row.isEdge]
  | heading mark number title =>
      exact isRule_eq_false_of_head?_ne (Reading.head?_heading_ne width mark number title)
  | detail l => exact isRule_eq_false_of_head?_ne (Reading.head?_detail_ne width l)

/-- A report on a failure has one box. -/
theorem filter_isRule_report {ref : List Step} (hne : ref ≠ [])
    (h : ∀ s ∈ ref, ∀ l ∈ s.lines, '\n' ∉ l) (rec : List Step) :
    ((report ref rec .fail).splitOn '\n').filter isRule
      = [List.replicate (boxWidth ref) '-', List.replicate (boxWidth ref) '-'] := by
  have hone := (Partition.conserves_ofRun ref rec .fail).length_failed_eq_one_iff.2 ⟨rfl, hne⟩
  obtain ⟨s, hs⟩ := List.length_eq_one_iff.1 hone
  rw [splitOn_report h, filter_map_text (isRule_text (boxWidth_pos ref)),
    Partition.filter_isEdge, hs]
  rfl

-- =========================================================== the report

/-- The lines of a report that are neither empty nor dashes are those of
its steps, numbered through the whole reference. -/
theorem mem_report_iff {ref : List Step} (h : ∀ s ∈ ref, ∀ l ∈ s.lines, '\n' ∉ l)
    (rec : List Step) (status : Status) {line : Text} :
    line ∈ (report ref rec status).splitOn '\n' ∧ isFiller line = false
      ↔ ∃ e ∈ ref.zipIdx 1,
          line ∈ e.1.shownLines ((Partition.ofRun ref rec status).markAt e.2) e.2 := by
  have hone := (Partition.conserves_ofRun ref rec status).length_failed_le
  have hkept := kept_rows_eq_flatMap (boxWidth ref) hone
  rw [Partition.all_ofRun] at hkept
  rw [← List.mem_flatMap, ← hkept, kept, List.mem_filter, splitOn_report h,
    Bool.not_eq_true']

/-- The edges of a box are the lines of a report that are made of dashes,
both `width` long; what the report shows of any step fits in between; and
the header of every step stands in it behind the step's number. -/
structure Boxed (ref : List Step) (p : Partition Step) (width : Nat) (lines : List Text) :
    Prop where
  edges : lines.filter isRule = [List.replicate width '-', List.replicate width '-']
  fits : ∀ line ∈ lines, isFiller line = false → (shownPart line).length + 2 ≤ width
  headers : ∀ e ∈ ref.zipIdx 1, e.1.headerLine (p.markAt e.2) e.2 ∈ lines

/-- Every failure in a sequence is boxed, and every box of the sequence is
as wide as needed for what is longest in it: one width fits all records,
and some numbered title or body line fills it. -/
theorem box_fits_sequence {ref : List Step} (hne : ref ≠ [])
    (h : ∀ s ∈ ref, ∀ l ∈ s.lines, '\n' ∉ l) :
    ∃ width,
      (∃ e ∈ ref.zipIdx 1, (numbered e.2 e.1.title).length + 2 = width
          ∨ ∃ l ∈ e.1.body, l.length + 2 = width)
        ∧ ∀ rec, (Partition.ofRun ref rec .fail).failed ≠ []
            ∧ Boxed ref (Partition.ofRun ref rec .fail) width
                ((report ref rec .fail).splitOn '\n') := by
  refine ⟨boxWidth ref, ?_, fun rec => ⟨?_, ?_⟩⟩
  · -- the longest text is that of some header or body line
    obtain ⟨l, hl, hlen⟩ := exists_length_eq_longest (measured_ne_nil hne)
    obtain ⟨e, he, hl⟩ := List.mem_flatMap.1 hl
    rw [boxWidth_eq, ← hlen]
    refine ⟨e, he, ?_⟩
    rcases List.mem_cons.1 hl with rfl | hl
    · exact Or.inl rfl
    · exact Or.inr ⟨l, hl, rfl⟩
  · have hone := (Partition.conserves_ofRun ref rec .fail).length_failed_eq_one_iff.2 ⟨rfl, hne⟩
    exact List.ne_nil_of_length_eq_add_one hone
  · refine ⟨filter_isRule_report hne h rec, fun line hline hfiller => ?_, fun e he => ?_⟩
    · obtain ⟨e, he, hline⟩ := (mem_report_iff h rec .fail).1 ⟨hline, hfiller⟩
      exact length_shownPart_le he hline
    · exact ((mem_report_iff h rec .fail).2 ⟨e, he, List.mem_cons_self⟩).1

/-- Ten steps with the same title: the second digit of the last number makes
the box wider, for every record. A character outside the first plane is one
like any other. -/
theorem box_fits_sequence_two_digits :
    let ref : List Step := List.replicate 10 ⟨"1. Go𝄞".toList, [[' ']]⟩
    ref ≠ [] ∧ (∀ s ∈ ref, ∀ l ∈ s.lines, '\n' ∉ l)
      ∧ ∀ rec, ((report ref rec .fail).splitOn '\n').filter isRule
          = ["---------".toList, "---------".toList] := by
  intro ref
  have hne : ref ≠ [] := by decide
  have h : ∀ s ∈ ref, ∀ l ∈ s.lines, '\n' ∉ l := by decide +kernel
  obtain ⟨width, -, hboxed⟩ := box_fits_sequence hne h
  -- the rules of one report tell the width of all
  have hwidth : width = 9 := by
    have hedges := (hboxed []).2.edges
    have hnine : ((report ref [] .fail).splitOn '\n').filter isRule
        = [List.replicate 9 '-', List.replicate 9 '-'] := by decide +kernel
    rw [hnine] at hedges
    simpa using (congrArg List.length (List.cons.inj hedges).1).symm
  subst hwidth
  exact ⟨hne, h, fun rec => (hboxed rec).2.edges⟩

end Runsheet
