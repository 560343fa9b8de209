/-
Texts. Every rule of this library speaks of characters, so a text is
the list of its characters and the whole theory of lists applies to it
as it stands: prefixes are `<+:`, a cut at a separator is `splitOn`,
and a length counts code points.

What runs is built on the language alone. The one list operation that
is missing there drops from the end what a predicate accepts; what is to
be known about it comes with the theory, where it has a name of its own
already (`Runsheet.Proofs.Text.Ends`). For the front there is `cut_iff`:
a list is cut in one way only at the first element refused.
-/
namespace Runsheet

/-- A text: its characters in reading order. -/
abbrev Text := List Char

-- ===================================================== cut at the first

/-- A list is cut before the first element that `p` refuses in one way:
all in front is accepted, and what stands behind opens with one refused,
if with any. -/
theorem cut_iff {α : Type _} {p : α → Bool} {l w r : List α} :
    l.takeWhile p = w ∧ l.dropWhile p = r
      ↔ l = w ++ r ∧ (∀ x ∈ w, p x = true) ∧ ∀ x ∈ r.head?, p x = false := by
  constructor
  · intro h
    obtain ⟨rfl, rfl⟩ := h
    refine ⟨List.takeWhile_append_dropWhile.symm,
      List.all_eq_true.1 List.all_takeWhile, fun x hx => ?_⟩
    have hhead := List.head?_dropWhile_not p l
    rw [Option.mem_def.1 hx] at hhead
    exact hhead
  · intro h
    obtain ⟨rfl, hw, hr⟩ := h
    rw [List.takeWhile_append_of_pos hw, List.dropWhile_append_of_pos hw]
    -- the rest is empty, or opens with an element that ends the run
    cases r with
    | nil => simp
    | cons x r =>
      have hx : ¬ p x = true := by simpa using hr x rfl
      rw [List.takeWhile_cons_of_neg hx, List.dropWhile_cons_of_neg hx, List.append_nil]
      exact ⟨rfl, rfl⟩

-- ================================================ dropping from the end

/-- The list without its longest suffix of elements that `p` accepts. -/
def dropEndWhile {α : Type _} (p : α → Bool) (l : List α) : List α :=
  (l.reverse.dropWhile p).reverse

end Runsheet
