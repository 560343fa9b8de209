/-
The reference in a report. Leave out the empty lines and the lines made
of dashes alone, and what remains is the reference: every step once, in
order, its header numbered from 1 and its body lines that are not blank,
four columns in (`kept_rows_eq_flatMap`). The summary counts what is so shown.

# What is left out

A heading stands behind its mark or behind blanks, and a body line that
is shown stands behind blanks. So no line of a step is empty or made of
dashes, whatever its title and its body hold; the gaps and edges are, and
so are blank body lines. That is said once for every kind of row
(`kept_step`), and the rest is that leaving out goes through the parts
of a report.

# Numbers and marks

The three groups of a partition are numbered one behind the other, each
from where the last one ended. Numbering the whole reference gives every
step the same number, so the mark of a step can be told from its number
and the number of done steps (`markAt`). With at most one failed step
there is no other number for it than the one behind the last done step.

A line that opens with a marker is the heading of a step with that mark:
body lines open with a blank, and what is left out is empty or opens with
a dash.
-/
import Mathlib.Data.List.Basic
import Runsheet.Proofs.Progress.Conservation
import Runsheet.Proofs.Report.Rows

namespace Runsheet

-- ========================================================= what is shown

/-- An empty line, or one made of dashes alone. -/
def isFiller (line : Text) : Bool := line.all (· = '-')

/-- The header of a step at its number: at column 4, behind a mark or
blanks, and with the mark once more behind a failed one. -/
def Step.headerLine (mark : Mark) (number : Nat) (s : Step) : Text :=
  match mark with
  | .done => "✓   ".toList ++ numbered number s.title
  | .failed => "✕   ".toList ++ numbered number s.title ++ " ✕".toList
  | .todo => "    ".toList ++ numbered number s.title

/-- The lines of a step: its header, and the body lines that are not
blank behind four spaces. -/
def Step.shownLines (mark : Mark) (number : Nat) (s : Step) : List Text :=
  s.headerLine mark number :: (s.body.filter (! Text.allBlank ·)).map ("    ".toList ++ ·)

/-- The mark of the step with a number: done up to the last done step,
failed right behind it if a step failed, not reached further on. -/
def Partition.markAt {α : Type _} (p : Partition α) (number : Nat) : Mark :=
  if number ≤ p.done.length then .done
  else if number = p.done.length + 1 ∧ p.failed ≠ [] then .failed
  else .todo

-- ====================================================== leaving out rows

/-- The lines of some rows, without those that are empty or dashes. -/
def kept (width : Nat) (rows : List Row) : List Text :=
  (rows.map (Row.text width)).filter (! isFiller ·)

theorem kept_append (width : Nat) (rows rows' : List Row) :
    kept width (rows ++ rows') = kept width rows ++ kept width rows' := by
  unfold kept
  rw [List.map_append, List.filter_append]

theorem kept_gap (width : Nat) : kept width [.gap] = [] := rfl

theorem kept_edge (width : Nat) : kept width [.edge] = [] := by
  simp [kept, Row.text, isFiller]

theorem Row.text_heading (width : Nat) (mark : Mark) (number : Nat) (s : Step) :
    (Row.heading mark number s.title).text width = s.headerLine mark number := by
  rw [Row.text, atColumn_of_lt mark.length_marker_lt]
  cases mark with
  | done => exact List.append_nil _
  | failed => rfl
  | todo => exact List.append_nil _

/-- A line that opens with no dash is not left out. -/
theorem isFiller_eq_false {c : Char} (h : c ≠ '-') (t : Text) : isFiller (c :: t) = false := by
  simp [isFiller, h]

/-- A heading is never left out, even if its title is all dashes. -/
theorem isFiller_headerLine (mark : Mark) (number : Nat) (s : Step) :
    isFiller (s.headerLine mark number) = false := by
  cases mark with
  | done => exact isFiller_eq_false (by decide) _
  | failed => exact isFiller_eq_false (by decide) _
  | todo => exact isFiller_eq_false (by decide) _

/-- Of a body the lines that are not blank are left. -/
theorem kept_details (width : Nat) (body : List Text) :
    kept width (body.map .detail)
      = (body.filter (! Text.allBlank ·)).map ("    ".toList ++ ·) := by
  induction body with
  | nil => rfl
  | cons l body ih =>
      rw [List.map_cons, ← List.singleton_append, kept_append, ih]
      cases hl : l.allBlank with
      | true =>
          rw [List.filter_cons_of_neg (by simp [hl]), kept, List.map_singleton,
            Row.text_detail_of_allBlank width hl]
          rfl
      | false =>
          rw [List.filter_cons_of_pos (by simp [hl]), kept, List.map_singleton,
            Row.text_detail_of_not_allBlank width hl]
          rfl

/-- Of the rows of a step, those are left that show something. -/
theorem kept_step (width : Nat) (mark : Mark) (number : Nat) (s : Step) :
    kept width (s.rows mark number) = s.shownLines mark number := by
  rw [Step.rows, ← List.singleton_append, kept_append, kept_details, kept,
    List.map_singleton, Row.text_heading, List.filter_singleton, isFiller_headerLine]
  rfl

/-- The lines of neighbouring steps of one mark, numbered from `number`. -/
def groupLines (mark : Mark) (number : Nat) (steps : List Step) : List Text :=
  (steps.zipIdx number).flatMap fun e => e.1.shownLines mark e.2

theorem groupLines_cons (mark : Mark) (number : Nat) (s : Step) (steps : List Step) :
    groupLines mark number (s :: steps)
      = s.shownLines mark number ++ groupLines mark (number + 1) steps := by
  rw [groupLines, List.zipIdx_cons, List.flatMap_cons]
  rfl

/-- The rows of neighbouring steps, less what is left out. -/
theorem kept_stepRows (width : Nat) (mark : Mark) (number : Nat) (steps : List Step) :
    kept width (stepRows mark number steps) = groupLines mark number steps := by
  induction steps generalizing number with
  | nil => rfl
  | cons s steps ih =>
      rw [stepRows_cons, kept_append, kept_step, ih, groupLines_cons]

/-- The box adds nothing to the lines of the steps in it. -/
theorem kept_boxRows (width : Nat) (p : Partition Step) :
    kept width p.boxRows = groupLines .failed (p.done.length + 1) p.failed := by
  unfold Partition.boxRows
  -- the numbers go on from step to step, so the induction is for any first number
  generalize p.done.length + 1 = number
  induction p.failed generalizing number with
  | nil => rfl
  | cons s failed ih =>
      rw [List.zipIdx_cons, List.flatMap_cons, kept_append, ih, groupLines_cons]
      congr 1
      rw [kept_append, kept_append, kept_step]
      show kept width ([.gap] ++ [.edge]) ++ _ ++ kept width ([.edge] ++ [.gap]) = _
      rw [kept_append, kept_append, kept_gap, kept_edge]
      simp

/-- The row between two groups is left out. -/
theorem kept_parting (width : Nat) (p : Partition Step) : kept width p.parting = [] := by
  unfold Partition.parting
  split <;> rfl

/-- The rows of a report, less what is left out, are those of the three
groups, numbered one behind the other. -/
theorem kept_rows (width : Nat) (p : Partition Step) :
    kept width p.rows
      = groupLines .done 1 p.done ++ groupLines .failed (p.done.length + 1) p.failed
        ++ groupLines .todo (p.done.length + p.failed.length + 1) p.todo := by
  unfold Partition.rows
  rw [← List.singleton_append]
  simp only [kept_append, kept_gap, kept_stepRows, kept_boxRows, kept_parting,
    List.nil_append, List.append_nil]

-- ==================================================== number by number

namespace Partition

variable {α : Type _} {p : Partition α} {number : Nat}

/-- Up to the last done step every number is that of a done step. -/
theorem markAt_of_le (h : number ≤ p.done.length) : p.markAt number = .done :=
  if_pos h

/-- Of one failed step the number is known. -/
theorem markAt_of_failed (hone : p.failed.length ≤ 1) (hlo : p.done.length < number)
    (hhi : number ≤ p.done.length + p.failed.length) : p.markAt number = .failed := by
  have hne : p.failed ≠ [] := List.length_pos_iff.1 (by omega)
  have hnumber : number = p.done.length + 1 := by omega
  rw [markAt, if_neg (Nat.not_le.2 hlo), if_pos ⟨hnumber, hne⟩]

/-- Behind the failed step every number is that of a step not reached. -/
theorem markAt_of_lt (h : p.done.length + p.failed.length < number) :
    p.markAt number = .todo := by
  have hnot : ¬ (number = p.done.length + 1 ∧ p.failed ≠ []) := by
    intro hfailed
    have hpos := List.length_pos_iff.2 hfailed.2
    omega
  rw [markAt, if_neg (by omega), if_neg hnot]

/-- The whole reference, numbered, is its three groups, each numbered from
where the last one ended. -/
theorem zipIdx_all (p : Partition α) :
    p.all.zipIdx 1
      = p.done.zipIdx 1 ++ p.failed.zipIdx (p.done.length + 1)
        ++ p.todo.zipIdx (p.done.length + p.failed.length + 1) := by
  rw [all, List.zipIdx_append, List.zipIdx_append, List.length_append, Nat.add_comm 1,
    Nat.add_comm 1]

end Partition

/-- The lines of steps that all have one mark by their numbers. -/
theorem groupLines_eq_markAt {p : Partition Step} {mark : Mark} {number : Nat}
    {steps : List Step}
    (h : ∀ i, number ≤ i → i < number + steps.length → p.markAt i = mark) :
    groupLines mark number steps
      = (steps.zipIdx number).flatMap fun e => e.1.shownLines (p.markAt e.2) e.2 := by
  refine List.flatMap_congr fun e he => ?_
  have hlo := List.le_snd_of_mem_zipIdx he
  have hhi := List.snd_lt_of_mem_zipIdx he
  rw [h e.2 hlo (by omega)]

/-- The lines of a report that are not left out are those of all steps,
each with its number and its mark. -/
theorem kept_rows_eq_flatMap (width : Nat) {p : Partition Step} (h : p.failed.length ≤ 1) :
    kept width p.rows
      = (p.all.zipIdx 1).flatMap fun e => e.1.shownLines (p.markAt e.2) e.2 := by
  rw [kept_rows, p.zipIdx_all, List.flatMap_append, List.flatMap_append]
  -- group by group: within one all numbers have the same mark
  congr 1
  · congr 1
    · apply groupLines_eq_markAt
      intro i _ hi
      exact Partition.markAt_of_le (by omega)
    · apply groupLines_eq_markAt
      intro i hlo hhi
      exact Partition.markAt_of_failed h (by omega) (by omega)
  · apply groupLines_eq_markAt
    intro i hlo _
    exact Partition.markAt_of_lt (by omega)

-- ============================================================== counting

/-- How many lines open with a character. -/
def countOpening (c : Char) (lines : List Text) : Nat :=
  lines.countP (Text.opensWith (· = c))

theorem countOpening_append (c : Char) (ls ls' : List Text) :
    countOpening c (ls ++ ls') = countOpening c ls + countOpening c ls' :=
  List.countP_append

/-- What is left out opens with a dash, if with anything. -/
theorem countOpening_kept {c : Char} (hc : c ≠ '-') (width : Nat) (rows : List Row) :
    countOpening c (kept width rows) = countOpening c (rows.map (Row.text width)) := by
  unfold countOpening kept
  rw [List.countP_filter]
  refine List.countP_congr fun l _ => ?_
  rw [Bool.and_eq_true, and_iff_left_iff_imp, Text.opensWith_iff]
  -- a line that opens with `c` is kept
  intro h
  obtain ⟨d, t, rfl, hd⟩ := h
  obtain rfl := of_decide_eq_true hd
  rw [isFiller_eq_false hc]
  rfl

/-- Among the lines of a step a marker opens the header alone, if it is
that of its mark. -/
theorem countOpening_shownLines {c : Char} (hc : c ≠ ' ') (mark : Mark) (number : Nat)
    (s : Step) :
    countOpening c (s.shownLines mark number) = if mark.marker = [c] then 1 else 0 := by
  -- body lines stand behind blanks
  have hbody : countOpening c
      ((s.body.filter (! Text.allBlank ·)).map ("    ".toList ++ ·)) = 0 := by
    refine List.countP_eq_zero.2 fun l hl => ?_
    obtain ⟨l', -, rfl⟩ := List.mem_map.1 hl
    simpa [Text.opensWith] using hc.symm
  rw [Step.shownLines, ← List.singleton_append, countOpening_append, hbody]
  cases mark <;> simp [countOpening, Step.headerLine, Text.opensWith, Mark.marker, hc.symm]

/-- A group has as many lines with a marker as it has steps, or none if the
marker is that of another mark. -/
theorem countOpening_groupLines {c : Char} (hc : c ≠ ' ') (mark : Mark) (number : Nat)
    (steps : List Step) :
    countOpening c (groupLines mark number steps)
      = if mark.marker = [c] then steps.length else 0 := by
  induction steps generalizing number with
  | nil => simp [groupLines, countOpening]
  | cons s steps ih =>
      rw [groupLines_cons, countOpening_append, countOpening_shownLines hc, ih,
        List.length_cons]
      split <;> omega

/-- So many lines of a report open with the marker of done and of failed
steps as there are such steps. -/
theorem countOpening_rows (width : Nat) (p : Partition Step) :
    countOpening '✓' (p.rows.map (Row.text width)) = p.done.length
      ∧ countOpening '✕' (p.rows.map (Row.text width)) = p.failed.length := by
  have hdone : '✓' ≠ ' ' := by decide
  have hfailed : '✕' ≠ ' ' := by decide
  constructor
  · rw [← countOpening_kept (by decide), kept_rows, countOpening_append,
      countOpening_append, countOpening_groupLines hdone, countOpening_groupLines hdone,
      countOpening_groupLines hdone]
    rfl
  · rw [← countOpening_kept (by decide), kept_rows, countOpening_append,
      countOpening_append, countOpening_groupLines hfailed, countOpening_groupLines hfailed,
      countOpening_groupLines hfailed]
    exact Nat.zero_add _

-- ============================================================ the report

/-- What the lines of a report and its summary say of a reference. -/
structure ShowsReference (ref : List Step) (o : Outcome) (p : Partition Step)
    (lines : List Text) : Prop where
  /-- Empty lines and rules aside, every step is shown once and in order,
  with its number and its mark. -/
  filter_lines : lines.filter (! isFiller ·)
    = (ref.zipIdx 1).flatMap fun e => e.1.shownLines (p.markAt e.2) e.2
  /-- The failed step is the one behind the last done step. -/
  failed_at : ∀ s ∈ p.failed, ref[p.done.length]? = some s
  countOpening_done : countOpening '✓' lines = p.done.length
  countOpening_failed : countOpening '✕' lines ≤ 1
  /-- The summary counts the done steps and all steps. -/
  summary : o.summary p = o.name ++ ": ".toList ++ o.status.capitals ++ " (".toList
    ++ Nat.toDigits 10 p.done.length ++ '/' :: Nat.toDigits 10 ref.length
    ++ " steps done)".toList

/-- A report shows every line of its reference that is not blank once and
in order, as it stands in its step, and marks the steps by what became of
them; the summary counts what is shown. -/
theorem report_shows_reference {ref : List Step}
    (h : ∀ s ∈ ref, ∀ l ∈ s.lines, '\n' ∉ l) (rec : List Step) (o : Outcome) :
    ShowsReference ref o (Partition.ofRun ref rec o.status)
      ((report ref rec o.status).splitOn '\n') := by
  have hconserves := Partition.conserves_ofRun ref rec o.status
  have hall : (Partition.ofRun ref rec o.status).all = ref := hconserves.eq_reference
  obtain ⟨hdone, hfailed⟩ :=
    countOpening_rows (boxWidth ref) (Partition.ofRun ref rec o.status)
  rw [splitOn_report h]
  refine ⟨?_, hconserves.getElem?_of_mem_failed, hdone, ?_, ?_⟩
  · have hfilter := kept_rows_eq_flatMap (boxWidth ref) hconserves.length_failed_le
    rw [hall] at hfilter
    exact hfilter
  · rw [hfailed]
    exact hconserves.length_failed_le
  · rw [Outcome.summary, Partition.size_eq_length_all, hall]

/-- Titles and body lines that look like marks and rules, and a body line
that is blank. -/
theorem report_shows_reference_rules :
    let ref : List Step := [⟨"1. ✓ Open".toList, ["---".toList, [' ']]⟩,
      ⟨"1. ---".toList, ["✕   2. Wait ✕".toList]⟩, ⟨"Close".toList, []⟩]
    (∀ s ∈ ref, ∀ l ∈ s.lines, '\n' ∉ l)
      ∧ ((report ref (ref.take 1) .fail).splitOn '\n').filter (! isFiller ·)
          = ["✓   1. ✓ Open".toList, "    ---".toList, "✕   2. --- ✕".toList,
            "    ✕   2. Wait ✕".toList, "    3. Close".toList] := by
  intro ref
  have h : ∀ s ∈ ref, ∀ l ∈ s.lines, '\n' ∉ l := by decide
  have hshows := report_shows_reference h (ref.take 1) ⟨.fail, "t".toList⟩
  exact ⟨h, hshows.filter_lines.trans (by decide +kernel)⟩

end Runsheet
