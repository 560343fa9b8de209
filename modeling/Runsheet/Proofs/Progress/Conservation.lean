/-
Conservation. However a run ended and whatever it recorded, the steps
shown done, failed and not reached are the reference, each step once
and in order; and a step is set apart exactly if the run failed and
there was a step to fail in.

# Nothing is looked up in vain

The partitions are told here a second time, the way they are worked out
on numbered lists: steps are looked up by position, and lists are cut
at a position. A position may be any integer. One that lies outside the
list answers nothing, and then nothing comes of the whole computation.

- `search?` compares both lists position by position, up to where the
  shorter one ends.
- `diverges?` looks once more at the boundary step of both lists.
- `byBoundary?` looks at the boundary step of the reference, or at its
  first if the boundary is -1, and `ofRun?` at the step behind the last
  that was recorded.

That these computations answer, and answer the partitions, is what says
that no position on the way is out of range (`byBoundary?_eq`,
`ofRun?_eq`).

# The argument

The loop of `search?` carries one invariant: every position before the
current one is agreed on, `i ≤ p` with `p` the length of the common
prefix. So the comparison at `i` answers whether `i < p`, and where the
loop stops it has found the boundary's closed form. Everything behind
the loop is arithmetic on that form.
-/
import Runsheet.Proofs.Progress.Agreement

namespace Runsheet

variable {α : Type _}

-- ========================================================= conservation

/-- A partition of a whole reference: every step stands in it once, in
order, and one is set apart exactly for a failed run with a reference. -/
structure Partition.Conserves (ref : List α) (status : Status) (p : Partition α) :
    Prop where
  eq_reference : p.done ++ p.failed ++ p.todo = ref
  length_failed_le : p.failed.length ≤ 1
  length_failed_eq_one_iff : p.failed.length = 1 ↔ status = .fail ∧ ref ≠ []

namespace Partition

/-- A run that has not failed may be cut anywhere. -/
theorem conserves_completed {status : Status} (h : status ≠ .fail) (ref : List α)
    (n : Nat) : Conserves ref status (completed ref n) where
  eq_reference := all_completed ref n
  length_failed_le := Nat.zero_le 1
  length_failed_eq_one_iff := iff_of_false Nat.zero_ne_one fun hfail => h hfail.1

/-- A failed one must be cut at a step that there is. -/
theorem conserves_failedAt {ref : List α} {i : Nat} (h : ref ≠ [] → i < ref.length) :
    Conserves ref .fail (failedAt ref i) where
  eq_reference := all_failedAt ref i
  length_failed_le := by
    rw [length_failed_failedAt]
    split <;> omega
  length_failed_eq_one_iff := by
    rw [length_failed_failedAt]
    by_cases hne : ref = []
    · subst hne
      simp
    · rw [if_pos (h hne)]
      exact iff_of_true rfl ⟨rfl, hne⟩

/-- The step set apart is the one behind the last done step. -/
theorem Conserves.getElem?_of_mem_failed {ref : List α} {status : Status}
    {p : Partition α} (h : Conserves ref status p) :
    ∀ s ∈ p.failed, ref[p.done.length]? = some s := by
  intro s hs
  have hone : p.failed = [s] := by
    have hle := h.length_failed_le
    obtain ⟨t, ht⟩ := List.length_eq_one_iff.1
      (Nat.le_antisymm hle (List.length_pos_of_mem hs))
    rw [ht, List.mem_singleton] at hs
    rw [ht, hs]
  rw [← h.eq_reference, hone]
  simp

end Partition

-- ========================================================= by position

namespace ByPosition

/-- The step at a position, which must be one of the list's. -/
def stepAt? (l : List α) (i : Int) : Option α :=
  if 0 ≤ i then l[i.toNat]? else none

/-- The steps before a position and those from it on; it must be one of
the list's, or its end. -/
def cutAt? (l : List α) (i : Int) : Option (List α × List α) :=
  if 0 ≤ i ∧ i ≤ l.length then some (l.take i.toNat, l.drop i.toNat) else none

/-- The steps before a position are done, and none failed. -/
def completed? (ref : List α) (i : Int) : Option (Partition α) := do
  let (done, todo) ← cutAt? ref i
  return ⟨done, [], todo⟩

/-- The step at a position failed. -/
def failedAt? (ref : List α) (i : Int) : Option (Partition α) := do
  let (done, _) ← cutAt? ref i
  let step ← stepAt? ref i
  let (_, todo) ← cutAt? ref (i + 1)
  return ⟨done, [step], todo⟩

/-- Within the list there is a step. -/
theorem stepAt?_of_lt {l : List α} {i : Nat} (h : i < l.length) :
    stepAt? l i = some l[i] := by
  rw [stepAt?, if_pos (Int.natCast_nonneg i), Int.toNat_natCast,
    List.getElem?_eq_getElem h]

/-- Within the list, or at its end, there is a cut. -/
theorem cutAt?_of_le {l : List α} {i : Nat} (h : i ≤ l.length) :
    cutAt? l i = some (l.take i, l.drop i) := by
  rw [cutAt?, if_pos (by omega), Int.toNat_natCast]

/-- Cut at a position in range, a partition is the one that never looks out
of range. -/
theorem completed?_of_le {ref : List α} {i : Nat} (h : i ≤ ref.length) :
    completed? ref i = some (Partition.completed ref i) := by
  rw [completed?, cutAt?_of_le h]
  rfl

/-- A failure at a position in range never looks out of range. -/
theorem failedAt?_of_lt {ref : List α} {i : Nat} (h : i < ref.length) :
    failedAt? ref i = some (Partition.failedAt ref i) := by
  have hi : (i : Int) + 1 = ((i + 1 : Nat) : Int) := rfl
  rw [failedAt?, cutAt?_of_le (Nat.le_of_lt h), stepAt?_of_lt h, hi, cutAt?_of_le h,
    Partition.failedAt, List.getElem?_eq_getElem h]
  rfl

variable [DecidableEq α]

-- =========================================================== the boundary

/-- Whether two lists hold the same step at a position. -/
def sameAt? (ref rec : List α) (i : Int) : Option Bool := do
  let r ← stepAt? ref i
  let a ← stepAt? rec i
  return r = a

/-- Compares `n` positions from `i` on: the first that differs, or else
the last one compared. -/
def search? (ref rec : List α) : Nat → Nat → Option Int
  | 0, i => some (i - 1)
  | n + 1, i => do
    if ← sameAt? ref rec i then search? ref rec n (i + 1) else return i

/-- The boundary, by comparing all positions that both lists hold. -/
def boundary? (ref rec : List α) : Option Int :=
  search? ref rec (min ref.length rec.length) 0

/-- Whether the boundary step differs; without a boundary nothing does. -/
def diverges? (ref rec : List α) : Option Bool := do
  let b ← boundary? ref rec
  if 0 ≤ b then return ! (← sameAt? ref rec b) else return false

/-- At a position that both lists hold and before which they agree, they
hold the same step exactly if agreement goes on. -/
theorem sameAt?_of_le {ref rec : List α} {i : Nat}
    (hi : i ≤ (commonPrefix ref rec).length) (hlt : i < min ref.length rec.length) :
    sameAt? ref rec i = some (decide (i < (commonPrefix ref rec).length)) := by
  have href : i < ref.length := by omega
  have hrec : i < rec.length := by omega
  rw [sameAt?, stepAt?_of_lt href, stepAt?_of_lt hrec]
  show some (decide (ref[i] = rec[i])) = _
  rw [decide_eq_decide.2 (getElem_eq_iff_lt_length_commonPrefix hi href hrec)]

/-- A search that has come no further than agreement goes finds the boundary;
the induction is on what is left to compare. -/
theorem search?_eq {ref rec : List α} {n i : Nat}
    (hn : i + n = min ref.length rec.length)
    (hi : i ≤ (commonPrefix ref rec).length) :
    search? ref rec n i = some (boundary ref rec) := by
  have hle := length_commonPrefix_le ref rec
  -- over the positions still to compare; `hi` is the loop's invariant
  induction n generalizing i with
  | zero =>
      rw [search?, boundary_eq]
      congr 1
      omega
  | succ n ih =>
      rw [search?, sameAt?_of_le hi (by omega), Option.bind_eq_bind, Option.bind_some]
      by_cases h : i < (commonPrefix ref rec).length
      · rw [if_pos (decide_eq_true h)]
        exact ih (by omega) h
      · rw [if_neg (by simpa using h), boundary_eq]
        show some (i : Int) = _
        congr 1
        omega

/-- The boundary is found without a look outside the lists. -/
theorem boundary?_eq (ref rec : List α) : boundary? ref rec = some (boundary ref rec) := by
  apply search?_eq
  · exact Nat.zero_add _
  · exact Nat.zero_le _

/-- Whether the step at the boundary differs is found without a look outside
the lists. -/
theorem diverges?_eq (ref rec : List α) : diverges? ref rec = some (diverges ref rec) := by
  have hle := length_commonPrefix_le ref rec
  have hmin := boundary_eq ref rec
  rw [diverges?, boundary?_eq, Option.bind_eq_bind, Option.bind_some]
  by_cases hb : 0 ≤ boundary ref rec
  · -- a boundary is a position of both lists, and all before it is agreed on
    obtain ⟨i, hi⟩ := Int.eq_ofNat_of_zero_le hb
    rw [if_pos hb, hi, sameAt?_of_le (by omega) (by omega)]
    show some (! decide _) = _
    congr 1
    rw [Bool.eq_iff_iff, diverges_iff, Bool.not_eq_true', decide_eq_false_iff_not]
    omega
  · have hno : ¬ diverges ref rec = true := by
      rw [diverges_iff]
      omega
    rw [if_neg hb, Bool.eq_false_iff.2 hno]
    rfl

-- ======================================================== both partitions

/-- The partition that the boundary alone decides. -/
def byBoundary? (ref rec : List α) (status : Status) : Option (Partition α) := do
  let b ← boundary? ref rec
  if status ≠ .fail then completed? ref (b + 1)
  else if ref.isEmpty then return ⟨[], [], []⟩
  else failedAt? ref (max b 0)

/-- The partition that a report shows. -/
def ofRun? (ref rec : List α) (status : Status) : Option (Partition α) := do
  let diverged ← diverges? ref rec
  if status = .fail ∧ ¬ diverged ∧ rec.length < ref.length then
    failedAt? ref rec.length
  else byBoundary? ref rec status

/-- The partition by the boundary cuts at a position of the reference. -/
theorem byBoundary?_eq (ref rec : List α) (status : Status) :
    byBoundary? ref rec status = some (Partition.byBoundary ref rec status) := by
  have hle := length_commonPrefix_le ref rec
  have hmin := boundary_eq ref rec
  rw [byBoundary?, boundary?_eq, Option.bind_eq_bind, Option.bind_some]
  by_cases hs : status = .fail
  · subst hs
    rw [if_neg (by simp), Partition.byBoundary_fail_eq]
    by_cases hne : ref = []
    · subst hne
      rfl
    · have hpos := List.length_pos_iff.2 hne
      have hi : max (boundary ref rec) 0
          = ((min (commonPrefix ref rec).length (min ref.length rec.length - 1) : Nat)
              : Int) := by omega
      rw [if_neg (by simpa using hne), hi]
      apply failedAt?_of_lt
      omega
  · -- the boundary itself was done, so the cut is behind it
    have hi : boundary ref rec + 1
        = ((min ((commonPrefix ref rec).length + 1) (min ref.length rec.length) : Nat)
            : Int) := by omega
    rw [if_pos hs, hi, Partition.byBoundary_eq_completed hs]
    apply completed?_of_le
    omega

/-- The partition that a report shows cuts at a position of the reference. -/
theorem ofRun?_eq (ref rec : List α) (status : Status) :
    ofRun? ref rec status = some (Partition.ofRun ref rec status) := by
  rw [ofRun?, diverges?_eq, Option.bind_eq_bind, Option.bind_some, Partition.ofRun]
  split
  · next h => exact failedAt?_of_lt h.2.2
  · exact byBoundary?_eq ref rec status

end ByPosition

namespace Partition

variable [DecidableEq α]

/-- By the boundary every step stands somewhere, whatever was recorded. -/
theorem conserves_byBoundary (ref rec : List α) (status : Status) :
    Conserves ref status (byBoundary ref rec status) := by
  by_cases hs : status = .fail
  · subst hs
    rw [byBoundary_fail_eq]
    apply conserves_failedAt
    intro hne
    have hpos := List.length_pos_iff.2 hne
    omega
  · rw [byBoundary_eq_completed hs]
    exact conserves_completed hs ref _

/-- In a report every step stands somewhere, whatever was recorded. -/
theorem conserves_ofRun (ref rec : List α) (status : Status) :
    Conserves ref status (ofRun ref rec status) := by
  rw [ofRun]
  split
  · next h =>
    rw [h.1]
    exact conserves_failedAt fun _ => h.2.2
  · exact conserves_byBoundary ref rec status

/-- Whatever was recorded and however the run ended, both partitions
conserve the reference, and on the way to neither is a position out of
range. -/
theorem partitions_conserve_reference (ref rec : List α) (status : Status) :
    (ByPosition.byBoundary? ref rec status = some (byBoundary ref rec status)
        ∧ Conserves ref status (byBoundary ref rec status))
      ∧ ByPosition.ofRun? ref rec status = some (ofRun ref rec status)
        ∧ Conserves ref status (ofRun ref rec status) := by
  refine ⟨⟨?_, conserves_byBoundary ref rec status⟩, ?_, conserves_ofRun ref rec status⟩
  · exact ByPosition.byBoundary?_eq ref rec status
  · exact ByPosition.ofRun?_eq ref rec status

end Partition

end Runsheet
