/-
Progress. A run is measured against its reference by position: the
recorded steps are laid beside the reference steps and compared pair by
pair. Nothing here depends on what a step is, so the whole module is
stated over any type with decidable equality.

# The boundary

The boundary is the position at which the run stopped, as far as the
record tells: the first position where record and reference differ, or
else the last position both hold. Before any step was recorded there
is no such position, and the boundary is -1.

# Two readings of a failure

`byBoundary` cuts the reference at the boundary. A failed run has
failed in the boundary step, whatever the record says about it, and in
the first step if nothing was recorded.

`ofRun` knows one case better. If every recorded step is as the
reference says and steps remain, then the last recorded step was
completed and the run failed in the next. In every other case it is
`byBoundary`.

Against both stands `commonPrefix`, the longest list that both record
and reference begin with; it is defined by its own recursion and
characterised by `isPrefix_commonPrefix_iff`.
-/
import Runsheet.Partition
import Runsheet.Status

namespace Runsheet

variable {α : Type _} [DecidableEq α]

-- ======================================================== common prefix

/-- The steps on which two lists agree before they first differ. -/
def commonPrefix : List α → List α → List α
  | r :: ref, a :: rec => if r = a then r :: commonPrefix ref rec else []
  | _, _ => []

/-- A list begins both arguments exactly when it begins their common
prefix. -/
theorem isPrefix_commonPrefix_iff {l ref rec : List α} :
    l <+: commonPrefix ref rec ↔ l <+: ref ∧ l <+: rec := by
  induction l generalizing ref rec with
  | nil => simp
  | cons x l ih =>
    cases ref with
    | nil => simp [commonPrefix]
    | cons r ref =>
      cases rec with
      | nil => simp [commonPrefix]
      | cons a rec =>
        by_cases h : r = a
        · subst h
          simp [commonPrefix, List.cons_prefix_cons, ih]
          grind
        · simp only [commonPrefix, h, if_false, List.cons_prefix_cons]
          grind

-- ============================================================= boundary

/-- The first position where both lists hold a step and the steps
differ. -/
def firstDifference? (ref rec : List α) : Option Nat :=
  (ref.zip rec).findIdx? fun p => p.1 ≠ p.2

/-- The position at which the run stopped; -1 if nothing was recorded or
there is nothing to compare with. -/
def boundary (ref rec : List α) : Int :=
  match firstDifference? ref rec with
  | some i => i
  | none => min ref.length rec.length - 1

/-- Whether the steps at the boundary differ. -/
def diverges (ref rec : List α) : Bool := (firstDifference? ref rec).isSome

-- =========================================================== partitions

namespace Partition

/-- The partition that the boundary alone decides. -/
def byBoundary (ref rec : List α) (status : Status) : Partition α :=
  if status = .fail then failedAt ref (boundary ref rec).toNat
  else completed ref (boundary ref rec + 1).toNat

/-- The partition that a report shows. -/
def ofRun (ref rec : List α) (status : Status) : Partition α :=
  if status = .fail ∧ ¬ diverges ref rec ∧ rec.length < ref.length then
    failedAt ref rec.length
  else byBoundary ref rec status

/-- By the boundary the reference is parted, whatever the record and the
status are. -/
@[simp] theorem all_byBoundary (ref rec : List α) (status : Status) :
    (byBoundary ref rec status).all = ref := by
  unfold byBoundary
  split
  · exact all_failedAt ref _
  · exact all_completed ref _

/-- In a report the reference is parted, whatever the record and the status
are. -/
@[simp] theorem all_ofRun (ref rec : List α) (status : Status) :
    (ofRun ref rec status).all = ref := by
  unfold ofRun
  split
  · exact all_failedAt ref _
  · exact all_byBoundary ref rec status

end Partition

end Runsheet
