/-
Rows and lines. A report is put together from rows and becomes text in
the last step. As long as no step holds a line feed, no row does, and so
the text can be taken apart again: its lines are its rows, one for one
(`splitOn_report`).

Whatever is said of the lines of a report is said of its rows first.
A row is empty, an edge of the box, or a row of some step (`mem_rows`);
what a row of a step shows stands at the step column, with the marker of
its heading in front, and a blank body line shows nothing.
-/
import Runsheet.Proofs.Step.Lines
import Runsheet.Report.Basic

namespace Runsheet

-- ====================================================== the text of a row

/-- A marker leaves a blank before the step column. -/
theorem Mark.length_marker_lt (mark : Mark) : mark.marker.length < stepColumn := by
  cases mark <;> decide

/-- A blank body line shows nothing. -/
theorem Row.text_detail_of_allBlank (width : Nat) {l : Text} (h : l.allBlank = true) :
    (Row.detail l).text width = [] := by
  rw [Row.text, if_pos h]

/-- A body line that is not blank stands at the step column, as it is. -/
theorem Row.text_detail_of_not_allBlank (width : Nat) {l : Text} (h : l.allBlank = false) :
    (Row.detail l).text width = List.replicate stepColumn ' ' ++ l := by
  rw [Row.text, if_neg (Bool.eq_false_iff.1 h), atColumn_nil]

theorem stepRows_cons (mark : Mark) (position : Nat) (s : Step) (steps : List Step) :
    stepRows mark position (s :: steps)
      = s.rows mark position ++ stepRows mark (position + 1) steps := by
  rw [stepRows, List.zipIdx_cons, List.flatMap_cons]
  rfl

-- ========================================================= no line feeds

/-- A title is part of its header, so it holds no character that the header
does not hold. -/
theorem Step.not_mem_title {s : Step} {c : Char} (h : c ∉ s.header) : c ∉ s.title := by
  intro hc
  have hrest := (Text.isSuffix_trimStart _).subset hc
  -- a header without a numeral is its own title
  cases hn : afterNumeral? s.header with
  | none =>
      rw [hn] at hrest
      exact h hrest
  | some rest =>
      rw [hn] at hrest
      obtain ⟨n, b, hl, -⟩ := afterNumeral?_eq_some_iff.1 hn
      rw [hl] at h
      exact h (List.mem_append_right _
        (List.mem_cons_of_mem _ (List.mem_cons_of_mem _ hrest)))

/-- No line feed is a digit. -/
theorem not_mem_toDigits (n : Nat) : '\n' ∉ Nat.toDigits 10 n := by
  intro h
  have := Nat.isDigit_of_mem_toDigits (by decide) (by decide) h
  cases this

/-- The row of a heading holds no line feed if its title holds none. -/
theorem Row.not_mem_heading (width : Nat) (mark : Mark) (position : Nat) {title : Text}
    (h : '\n' ∉ title) : '\n' ∉ (Row.heading mark position title).text width := by
  have hd := not_mem_toDigits position
  rw [Row.text, atColumn_of_lt mark.length_marker_lt, numbered]
  -- markers, suffixes and digits hold no line feed, and the title is the rest
  cases mark <;> simp [Mark.marker, Mark.suffix, h, hd]

/-- The row of a body line without a line feed holds none. -/
theorem Row.not_mem_detail (width : Nat) {l : Text} (h : '\n' ∉ l) :
    '\n' ∉ (Row.detail l).text width := by
  cases hl : l.allBlank with
  | true =>
      rw [Row.text_detail_of_allBlank width hl]
      exact List.not_mem_nil
  | false =>
      rw [Row.text_detail_of_not_allBlank width hl]
      simp [h]

theorem Row.not_mem_edge (width : Nat) : '\n' ∉ Row.edge.text width := by
  simp [Row.text]

/-- Every row of a step is one line, if every line of the step is. -/
theorem Step.not_mem_rows (width : Nat) (mark : Mark) (position : Nat) {s : Step}
    (hs : ∀ l ∈ s.lines, '\n' ∉ l) :
    ∀ row ∈ s.rows mark position, '\n' ∉ row.text width := by
  intro row hrow
  rcases List.mem_cons.1 hrow with hrow | hrow
  · subst hrow
    exact Row.not_mem_heading width mark position
      (not_mem_title (hs _ List.mem_cons_self))
  · obtain ⟨l, hl, rfl⟩ := List.mem_map.1 hrow
    exact Row.not_mem_detail width (hs l (List.mem_cons_of_mem _ hl))

-- ======================================================= rows of a report

/-- A row of a group belongs to one of its steps. -/
theorem mem_stepRows {mark : Mark} {position : Nat} {steps : List Step} {row : Row}
    (h : row ∈ stepRows mark position steps) :
    ∃ s ∈ steps, ∃ i, row ∈ s.rows mark i := by
  obtain ⟨⟨s, i⟩, hsi, hrow⟩ := List.mem_flatMap.1 h
  exact ⟨s, List.fst_mem_of_mem_zipIdx hsi, i, hrow⟩

/-- A row is empty, an edge, or of some step. -/
theorem mem_rows {p : Partition Step} {row : Row} (h : row ∈ p.rows) :
    row = .gap ∨ row = .edge ∨ ∃ s ∈ p.all, ∃ mark i, row ∈ s.rows mark i := by
  -- a step in the box has two edges and two empty rows about it
  have hfailed : row ∈ p.boxRows →
      row = .gap ∨ row = .edge ∨ ∃ s ∈ p.failed, ∃ i, row ∈ s.rows .failed i := by
    intro hrow
    obtain ⟨⟨s, i⟩, hsi, hrow⟩ := List.mem_flatMap.1 hrow
    have hs := List.fst_mem_of_mem_zipIdx hsi
    simp only [List.mem_append, List.mem_cons, List.not_mem_nil, or_false] at hrow
    rcases hrow with ((hrow | hrow) | hrow) | hrow | hrow
    · exact Or.inl hrow
    · exact Or.inr (Or.inl hrow)
    · exact Or.inr (Or.inr ⟨s, hs, i, hrow⟩)
    · exact Or.inr (Or.inl hrow)
    · exact Or.inl hrow
  have hparting : row ∈ p.parting → row = .gap := by
    unfold Partition.parting
    split
    · exact List.mem_singleton.1
    · intro hrow
      cases hrow
  unfold Partition.rows at h
  simp only [List.mem_append, List.mem_cons, List.not_mem_nil, or_false] at h
  unfold Partition.all
  rcases h with (((h | h) | h) | h) | h
  · rcases h with h | h
    · exact Or.inl h
    · obtain ⟨s, hs, i, hrow⟩ := mem_stepRows h
      exact Or.inr (Or.inr ⟨s, by simp [hs], .done, i, hrow⟩)
  · rcases hfailed h with h | h | ⟨s, hs, i, hrow⟩
    · exact Or.inl h
    · exact Or.inr (Or.inl h)
    · exact Or.inr (Or.inr ⟨s, by simp [hs], .failed, i, hrow⟩)
  · exact Or.inl (hparting h)
  · obtain ⟨s, hs, i, hrow⟩ := mem_stepRows h
    exact Or.inr (Or.inr ⟨s, by simp [hs], .todo, i, hrow⟩)
  · exact Or.inl h

/-- Every row is one line, if every line of every step is. -/
theorem Partition.not_mem_rows (width : Nat) {p : Partition Step}
    (h : ∀ s ∈ p.all, ∀ l ∈ s.lines, '\n' ∉ l) :
    ∀ row ∈ p.rows, '\n' ∉ row.text width := by
  intro row hrow
  rcases mem_rows hrow with hrow | hrow | ⟨s, hs, mark, i, hrow⟩
  · rw [hrow]
    exact List.not_mem_nil
  · rw [hrow]
    exact Row.not_mem_edge width
  · exact s.not_mem_rows width mark i (h s hs) row hrow

/-- Even a partition without steps has an empty row at both ends. -/
theorem Partition.rows_ne_nil (p : Partition Step) : p.rows ≠ [] := by
  unfold Partition.rows
  simp

/-- Rows that were joined are cut apart again at the line feeds. -/
theorem splitOn_joinLines_rows (width : Nat) {p : Partition Step}
    (h : ∀ s ∈ p.all, ∀ l ∈ s.lines, '\n' ∉ l) :
    (Text.joinLines (p.rows.map (Row.text width))).splitOn '\n'
      = p.rows.map (Row.text width) := by
  -- no rows at all would come back as one empty line
  refine List.splitOn_intercalate '\n' (fun l hl => ?_) (by simp [p.rows_ne_nil])
  obtain ⟨row, hrow, rfl⟩ := List.mem_map.1 hl
  exact Partition.not_mem_rows width h row hrow

/-- The box has room for its padding. -/
theorem boxWidth_pos (ref : List Step) : 0 < boxWidth ref :=
  Nat.lt_of_lt_of_le (by decide) (Nat.le_add_left _ _)

/-- The lines of a report are its rows. -/
theorem splitOn_report {ref : List Step} (h : ∀ s ∈ ref, ∀ l ∈ s.lines, '\n' ∉ l)
    (rec : List Step) (status : Status) :
    (report ref rec status).splitOn '\n'
      = (Partition.ofRun ref rec status).rows.map (Row.text (boxWidth ref)) := by
  apply splitOn_joinLines_rows
  rw [Partition.all_ofRun]
  exact h

end Runsheet
