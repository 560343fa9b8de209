/-
Layout. A report line puts its text at a column, with or without a
marker at the left edge; the width of a group of lines is that of the
longest. Widths count code points.
-/
import Runsheet.Text.Basic

namespace Runsheet

/-- `text` at column `column`, behind `marker` at column 0. A marker that
reaches the column is followed by one space all the same; without a
marker, a column left of the edge is the edge. -/
def atColumn (text : Text) (column : Int) (marker : Text) : Text :=
  let gap := max (column - marker.length).toNat (if marker.isEmpty then 0 else 1)
  marker ++ List.replicate gap ' ' ++ text

/-- The length of the longest line; 0 if there is none. -/
def longest (ls : List Text) : Nat := (ls.map List.length).foldl max 0

/-- Without a marker, only the column counts. -/
theorem atColumn_nil (text : Text) (column : Nat) :
    atColumn text column [] = List.replicate column ' ' ++ text := by
  simp [atColumn]

/-- Text behind a marker that leaves room starts at the column. -/
theorem atColumn_of_lt {marker : Text} {column : Nat} (h : marker.length < column)
    (text : Text) :
    atColumn text column marker
      = marker ++ List.replicate (column - marker.length) ' ' ++ text := by
  have hgap : max ((column : Int) - marker.length).toNat (if marker.isEmpty then 0 else 1)
      = column - marker.length := by
    split <;> omega
  simp only [atColumn, hgap]

/-- The longest line is the first one or the longest of the others. -/
theorem longest_cons (l : Text) (ls : List Text) :
    longest (l :: ls) = max l.length (longest ls) := by
  simp only [longest, List.map_cons, List.foldl_cons, Nat.zero_max]
  generalize ls.map List.length = ns
  suffices h : ∀ a b : Nat, ns.foldl max (max a b) = max a (ns.foldl max b) by
    simpa using h l.length 0
  induction ns with
  | nil => intro a b; rfl
  | cons n ns ih => intro a b; rw [List.foldl_cons, List.foldl_cons, Nat.max_assoc, ih]

/-- Every line fits into the longest length. -/
theorem length_le_longest {l : Text} {ls : List Text} (h : l ∈ ls) :
    l.length ≤ longest ls := by
  induction ls with
  | nil => cases h
  | cons m ls ih =>
    rw [longest_cons]
    rcases List.mem_cons.1 h with rfl | h
    · omega
    · have := ih h
      omega

/-- The longest length is the length of some line, if there is one. -/
theorem exists_length_eq_longest {ls : List Text} (h : ls ≠ []) :
    ∃ l ∈ ls, l.length = longest ls := by
  induction ls with
  | nil => exact absurd rfl h
  | cons m ls ih =>
    rw [longest_cons]
    by_cases hm : longest ls ≤ m.length
    · exact ⟨m, List.mem_cons_self, by omega⟩
    · have hls : ls ≠ [] := by
        rintro rfl
        exact hm (Nat.zero_le _)
      obtain ⟨l, hl, he⟩ := ih hls
      exact ⟨l, List.mem_cons_of_mem m hl, by omega⟩

end Runsheet
