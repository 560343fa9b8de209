/-
Lines. A line break is a line feed, together with the return that may
stand directly before it; a return anywhere else is an ordinary
character of its line. A text with `n` breaks has `n + 1` lines, so
the text behind the last break is a line even when it is empty.

The cut is `splitOn` at the line feed, after which every line but the
last gives up one return at its end. Joining puts line feeds back, so
to join the lines of a text makes all its breaks alike and changes
nothing else.
-/
import Runsheet.Text.Blank

namespace Runsheet

namespace Text

/-- The line less one return at its end, which belongs to the break
behind it. -/
def withoutReturn (line : Text) : Text :=
  if line.getLast? = some '\r' then line.dropLast else line

/-- The lines of a text. -/
def lines (t : Text) : List Text :=
  let pieces := t.splitOn '\n'
  pieces.dropLast.map withoutReturn ++ pieces.getLast?.toList

/-- Lines put together, a line feed between neighbours. -/
def joinLines (ls : List Text) : Text := ['\n'].intercalate ls

-- ================================================= one equation per shape

@[simp] theorem withoutReturn_concat_return (t : Text) :
    withoutReturn (t ++ ['\r']) = t := by
  simp [withoutReturn]

theorem withoutReturn_of_getLast?_ne {t : Text} (h : t.getLast? ≠ some '\r') :
    withoutReturn t = t := by
  simp [withoutReturn, h]

/-- A text without a line feed is one line, whole. -/
theorem lines_of_not_mem {t : Text} (h : '\n' ∉ t) : lines t = [t] := by
  have hs : t.splitOn '\n' = [t] := List.splitOn_eq_singleton h
  simp [lines, hs]

/-- The first break ends the first line. -/
theorem lines_append_cons {a : Text} (h : '\n' ∉ a) (b : Text) :
    lines (a ++ '\n' :: b) = withoutReturn a :: lines b := by
  have hs : (a ++ '\n' :: b).splitOn '\n' = a :: b.splitOn '\n' := by
    rw [List.splitOn_append_cons_self, List.splitOn_eq_singleton h]
    rfl
  obtain ⟨x, r, hr⟩ := List.exists_cons_of_ne_nil (List.splitOn_ne_nil '\n' b)
  simp only [lines, hs, hr]
  rfl

theorem joinLines_cons_cons (l l' : Text) (ls : List Text) :
    joinLines (l :: l' :: ls) = l ++ '\n' :: joinLines (l' :: ls) := by
  rw [joinLines, List.intercalate_cons_cons, List.append_assoc]
  rfl

/-- Induction over breaks: a text is one line, or a line, a break and a
shorter text. -/
theorem line_induction {motive : Text → Prop}
    (single : ∀ t, '\n' ∉ t → motive t)
    (cons : ∀ a b, '\n' ∉ a → motive b → motive (a ++ '\n' :: b)) (t : Text) :
    motive t := by
  by_cases h : '\n' ∈ t
  · obtain ⟨a, b, ht, ha⟩ := List.eq_append_cons_of_mem h
    have : b.length < t.length := by simp [ht]; omega
    exact ht ▸ cons a b ha (line_induction single cons b)
  · exact single t h
termination_by t.length

/-- A break ends the last line of what stands before it; the lines before
that one and the lines behind the break stay as they are. -/
theorem exists_lines_append_break (a : Text) :
    ∃ before last, lines a = before ++ [last]
      ∧ ∀ b, lines (a ++ '\n' :: b) = before ++ withoutReturn last :: lines b := by
  induction a using line_induction with
  | single a ha => exact ⟨[], a, lines_of_not_mem ha, lines_append_cons ha⟩
  | cons a a' ha ih =>
      obtain ⟨before, last, hlines, happend⟩ := ih
      refine ⟨withoutReturn a :: before, last, ?_, ?_⟩
      · rw [lines_append_cons ha, hlines, List.cons_append]
      · intro b
        rw [List.append_assoc, List.cons_append, lines_append_cons ha, happend,
          List.cons_append]

/-- A line less its return is a prefix of the line. -/
theorem isPrefix_withoutReturn (t : Text) : withoutReturn t <+: t := by
  rw [withoutReturn]
  split
  · exact List.dropLast_prefix t
  · exact List.prefix_refl t

/-- No line holds a line feed. -/
theorem not_mem_of_mem_lines {t l : Text} (h : l ∈ lines t) : '\n' ∉ l := by
  induction t using line_induction with
  | single t ht => rw [lines_of_not_mem ht, List.mem_singleton] at h; exact h ▸ ht
  | cons a b ha ih =>
    rw [lines_append_cons ha, List.mem_cons] at h
    rcases h with rfl | h
    · exact fun hm => ha ((isPrefix_withoutReturn a).subset hm)
    · exact ih h

end Text

end Runsheet
