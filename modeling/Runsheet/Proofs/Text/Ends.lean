/-
The ends of lists and of texts. What the running part calls
`dropEndWhile` is `List.rdropWhile` (`dropEndWhile_eq_rdropWhile`), and
its prefix and its last element are looked up there; what is missing is
how it goes with lists put together (`dropEndWhile_append_of_pos`,
`dropEndWhile_append_cons_of_neg`).

Trimming drops at both ends. Blanks around a text are what is trimmed
off and make no difference to what is left (`exists_eq_append_trim`,
`trim_append_append`), and the return of a line break is such a blank
(`trim_withoutReturn`).
-/
import Mathlib.Data.List.DropRight
import Runsheet.Text.Lines

namespace Runsheet

-- ============================================================ ends of lists

section

variable {α : Type _} {p : α → Bool} {l s : List α} {x : α}

theorem dropEndWhile_eq_rdropWhile (p : α → Bool) (l : List α) :
    dropEndWhile p l = l.rdropWhile p := rfl

/-- What is dropped stood at the end, and all of it was accepted. -/
theorem exists_append_dropEndWhile (p : α → Bool) (l : List α) :
    ∃ s, l = dropEndWhile p l ++ s ∧ ∀ x ∈ s, p x = true := by
  rw [dropEndWhile_eq_rdropWhile]
  exact ⟨l.rtakeWhile p, List.rdropWhile_append_rtakeWhile.symm,
    fun _ => List.mem_rtakeWhile_imp⟩

theorem isPrefix_dropEndWhile (p : α → Bool) (l : List α) : dropEndWhile p l <+: l := by
  rw [dropEndWhile_eq_rdropWhile]
  exact List.rdropWhile_prefix p l

/-- Accepted elements at the end go. -/
theorem dropEndWhile_append_of_pos (h : ∀ x ∈ s, p x = true) :
    dropEndWhile p (l ++ s) = dropEndWhile p l := by
  rw [dropEndWhile, List.reverse_append, List.dropWhile_append_of_pos, dropEndWhile]
  intro x hx
  exact h x (List.mem_reverse.1 hx)

/-- What goes stood behind the last element that is refused. -/
theorem dropEndWhile_append_cons_of_neg (hx : p x = false) :
    dropEndWhile p (l ++ x :: s) = l ++ x :: dropEndWhile p s := by
  rw [dropEndWhile, List.reverse_append, List.reverse_cons, List.append_assoc,
    List.dropWhile_append]
  split
  · next h =>
    -- all of `s` goes, and `x` is the last element
    have hs : dropEndWhile p s = [] := by
      rw [dropEndWhile, List.isEmpty_iff.1 h, List.reverse_nil]
    simp [hx, hs]
  · simp [dropEndWhile]

/-- Nothing goes from behind a last element that is refused. -/
theorem dropEndWhile_of_getLast? (h : l.getLast? = some x) (hx : p x = false) :
    dropEndWhile p l = l := by
  obtain ⟨init, rfl⟩ := List.getLast?_eq_some_iff.1 h
  rw [dropEndWhile_eq_rdropWhile, List.rdropWhile_concat_neg p init x (Bool.eq_false_iff.1 hx)]

/-- What stays does not end in an accepted element. -/
theorem neg_of_getLast?_dropEndWhile (h : (dropEndWhile p l).getLast? = some x) :
    p x = false := by
  rw [dropEndWhile_eq_rdropWhile] at h
  have hne : l.rdropWhile p ≠ [] := List.ne_nil_of_mem (List.mem_of_getLast? h)
  have hlast : (l.rdropWhile p).getLast hne = x :=
    Option.some.inj ((List.getLast?_eq_some_getLast hne).symm.trans h)
  rw [Bool.eq_false_iff, ← hlast]
  exact List.rdropWhile_last_not p l hne

end

namespace Text

-- =========================================================== trimmed texts

/-- A trimmed text does not end in a gap. -/
theorem isBlank_eq_false_of_getLast?_trim {t : Text} {c : Char}
    (h : t.trim.getLast? = some c) : isBlank c = false :=
  neg_of_getLast?_dropEndWhile h

/-- A blank at the end makes no difference to a trimmed text. -/
theorem trim_concat_of_isBlank {c : Char} (h : isBlank c = true) (t : Text) :
    trim (t ++ [c]) = trim t := by
  have hstart : trimStart (t ++ [c]) = trimStart t ++ [c]
      ∨ trimStart (t ++ [c]) = [] ∧ trimStart t = [] := by
    rw [trimStart, trimStart, List.dropWhile_append]
    by_cases ht : (t.dropWhile isBlank).isEmpty = true
    · right
      rw [if_pos ht, List.dropWhile_cons_of_pos h]
      exact ⟨rfl, List.isEmpty_iff.1 ht⟩
    · left
      rw [if_neg ht]
  rcases hstart with hstart | ⟨hstart, ht⟩
  · rw [trim, hstart]
    exact dropEndWhile_append_of_pos (by simpa using h)
  · rw [trim, trim, hstart, ht]

/-- Without a blank at either end there is nothing to trim. -/
theorem trim_eq_self {t : Text} (hfirst : ∀ c ∈ t.head?, isBlank c = false)
    (hlast : ∀ c ∈ t.getLast?, isBlank c = false) : t.trim = t := by
  have hstart : t.trimStart = t := by
    cases t with
    | nil => rfl
    | cons c t => exact List.dropWhile_cons_of_neg (Bool.eq_false_iff.1 (hfirst c rfl))
  rw [trim, hstart]
  cases h : t.getLast? with
  | none => rw [List.getLast?_eq_none_iff.1 h]; rfl
  | some c => exact dropEndWhile_of_getLast? h (hlast c h)

/-- Blanks at the end are trimmed with the rest. -/
theorem trim_append_of_allBlank {b : Text} (hb : b.allBlank = true) (t : Text) :
    trim (t ++ b) = trim t := by
  rw [allBlank_iff] at hb
  induction b generalizing t with
  | nil => rw [List.append_nil]
  | cons c b ih =>
      have hc := hb c List.mem_cons_self
      have hrest := fun d hd => hb d (List.mem_cons_of_mem c hd)
      rw [← List.singleton_append, ← List.append_assoc, ih hrest, trim_concat_of_isBlank hc]

/-- Blanks on both sides make no difference to a trimmed text. -/
theorem trim_append_append {a b : Text} (ha : a.allBlank = true) (hb : b.allBlank = true)
    (t : Text) : trim (a ++ t ++ b) = trim t := by
  rw [trim_append_of_allBlank hb, trim, trimStart,
    List.dropWhile_append_of_pos (allBlank_iff.1 ha)]
  rfl

/-- What is trimmed off are blanks on both sides. -/
theorem exists_eq_append_trim (t : Text) :
    ∃ a b, t = a ++ t.trim ++ b ∧ a.allBlank = true ∧ b.allBlank = true := by
  obtain ⟨b, hb, hblank⟩ := exists_append_dropEndWhile isBlank t.trimStart
  refine ⟨t.takeWhile isBlank, b, ?_, List.all_takeWhile, allBlank_iff.2 hblank⟩
  calc t = t.takeWhile isBlank ++ t.trimStart := List.takeWhile_append_dropWhile.symm
    _ = t.takeWhile isBlank ++ (t.trim ++ b) := by rw [trim, trimEnd, ← hb]
    _ = t.takeWhile isBlank ++ t.trim ++ b := (List.append_assoc _ _ _).symm

/-- A text is trimmed away entirely exactly when all of it is blank. -/
theorem trim_eq_nil_iff {t : Text} : t.trim = [] ↔ t.allBlank = true := by
  rw [trim, trimEnd, dropEndWhile_eq_rdropWhile, List.rdropWhile_eq_nil_iff, allBlank_iff]
  constructor
  · intro h c hc
    rw [← List.takeWhile_append_dropWhile (p := isBlank) (l := t),
      List.mem_append] at hc
    rcases hc with hc | hc
    · exact List.all_eq_true.1 List.all_takeWhile c hc
    · exact h c hc
  · intro h c hc
    exact h c ((List.dropWhile_suffix isBlank).subset hc)

-- ================================================== returns before breaks

/-- The return that a break takes is blank. -/
theorem trim_withoutReturn (l : Text) : l.withoutReturn.trim = l.trim := by
  by_cases h : l.getLast? = some '\r'
  · obtain ⟨init, rfl⟩ := List.getLast?_eq_some_iff.1 h
    have hr : isBlank '\r' = true := by decide
    rw [withoutReturn_concat_return, trim_concat_of_isBlank hr]
  · rw [withoutReturn_of_getLast?_ne h]

/-- A carriage return is a blank, so a line is blank with it or without it.
-/
theorem allBlank_withoutReturn (l : Text) : l.withoutReturn.allBlank = l.allBlank := by
  rw [Bool.eq_iff_iff, ← trim_eq_nil_iff, ← trim_eq_nil_iff, trim_withoutReturn]

end Text

end Runsheet
