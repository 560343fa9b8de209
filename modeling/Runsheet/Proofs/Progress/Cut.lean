/-
Records cut off before a step. The text of a sequence up to the header
of some step is what a run would have recorded if it followed the
sequence and stopped there. Is a failed run with that record shown as
failed in that step?

It is whenever the record reads as the steps before the cut, and only
then (`ofRun_fail_eq_failedAt_iff`). Up to the cut the lines are those
of the sequence, so what can differ is what reading them again changes
(`readAll_joinLines_iff`): a return in front of a line feed, which the
break takes with it, and blank lines at the end of the step before the
cut. In the sequence that step has another behind it and keeps its
blank lines; in the record it is the last and loses them.
-/
import Runsheet.Proofs.Progress.Agreement
import Runsheet.Proofs.Step.Lines

namespace Runsheet.Step

-- ============================================================== the cut

/-- The lines in front of the header of the step at position `k`; all of
them if there is no such step. -/
def linesBefore : Nat → List Text → List Text
  | _, [] => []
  | k, l :: ls =>
    if opensStep l then
      match k with
      | 0 => []
      | k + 1 => l :: linesBefore k ls
    else l :: linesBefore k ls

/-- A text up to the header of the step at position `k`. -/
def cutBefore (k : Nat) (t : Text) : Text := Text.joinLines (linesBefore k t.lines)

/-- What is no header is never cut off by itself. -/
theorem linesBefore_cons_of_not_opens {l : Text} (h : opensStep l = false) (k : Nat)
    (ls : List Text) : linesBefore k (l :: ls) = l :: linesBefore k ls := by
  simp [linesBefore, h]

/-- Before the first step the lines end at the first header. -/
theorem linesBefore_zero_cons_of_opens {l : Text} (h : opensStep l = true)
    (ls : List Text) : linesBefore 0 (l :: ls) = [] := by
  rw [linesBefore, if_pos h]

/-- Before a later step they go on behind it. -/
theorem linesBefore_succ_cons_of_opens {l : Text} (h : opensStep l = true) (k : Nat)
    (ls : List Text) : linesBefore (k + 1) (l :: ls) = l :: linesBefore k ls := by
  rw [linesBefore, if_pos h]

/-- The lines before a step hold what stands before the first header,
and the steps before that one. -/
theorem group_linesBefore (k : Nat) (ls : List Text) :
    group (linesBefore k ls) = ((group ls).1, (group ls).2.take k) := by
  induction ls generalizing k with
  | nil => simp [linesBefore]
  | cons l ls ih =>
      cases h : opensStep l with
      | false =>
          rw [linesBefore_cons_of_not_opens h, group_cons_of_not_opens h,
            group_cons_of_not_opens h, ih]
      | true =>
          rw [group_cons_of_opens h ls]
          cases k with
          | zero => rw [linesBefore_zero_cons_of_opens h, group_nil, List.take_zero]
          | succ k =>
              rw [linesBefore_succ_cons_of_opens h, group_cons_of_opens h, ih,
                List.take_succ_cons]

/-- Lines behind the header of a step do not reach in front of it. -/
theorem linesBefore_append {k : Nat} {ls : List Text} (hk : k < ls.countP opensStep)
    (ms : List Text) : linesBefore k (ls ++ ms) = linesBefore k ls := by
  -- over the lines: `hk` keeps the header that is looked for in the first part
  induction ls generalizing k with
  | nil => cases hk
  | cons l ls ih =>
      rw [List.cons_append]
      cases h : opensStep l with
      | false =>
          have hn : ¬ opensStep l = true := by rw [h]; exact Bool.false_ne_true
          rw [List.countP_cons_of_neg hn] at hk
          rw [linesBefore_cons_of_not_opens h, linesBefore_cons_of_not_opens h, ih hk]
      | true =>
          rw [List.countP_cons_of_pos h] at hk
          cases k with
          | zero =>
              rw [linesBefore_zero_cons_of_opens h, linesBefore_zero_cons_of_opens h]
          | succ k =>
              rw [linesBefore_succ_cons_of_opens h, linesBefore_succ_cons_of_opens h,
                ih (Nat.lt_of_succ_lt_succ hk)]

/-- The lines before a step of a text are lines in front of its first
header, and then the lines of the steps before that one. -/
theorem linesBefore_eq {t : Text} {k : Nat} (hk : k < (readAll t).length) :
    ∃ pre, linesBefore k t.lines = pre ++ ((readAll t).take k).flatMap Step.lines
      ∧ ∀ l ∈ pre, opensStep l = false ∧ '\n' ∉ l := by
  obtain ⟨pre, blanks, hlines, hpre, -⟩ := exists_lines_eq t
  have hgroup : group (pre ++ (readAll t).flatMap Step.lines) = (pre, readAll t) := by
    rw [group_append_of_not_opens fun l hl => (hpre l hl).1,
      group_flatMap_lines fun s hs => wellFormed_of_mem_readAll hs, List.append_nil]
  have hcount : k < (pre ++ (readAll t).flatMap Step.lines).countP opensStep := by
    rw [← length_group, hgroup]
    exact hk
  refine ⟨pre, ?_, hpre⟩
  -- The blank lines at the end stand behind the cut.
  have happ := append_flatMap_group (linesBefore k (pre ++ (readAll t).flatMap Step.lines))
  rw [group_linesBefore, hgroup] at happ
  rw [hlines, linesBefore_append hcount, ← happ]

-- =========================================================== the record

/-- A text cut off before a step reads as the steps before it exactly if
the last of them does not end in a blank line, and no line of them but
the very last ends in a return. -/
theorem readAll_cutBefore_iff {t : Text} {k : Nat} (hk : k < (readAll t).length) :
    readAll (cutBefore k t) = (readAll t).take k
      ↔ EndsSolid ((readAll t).take k)
        ∧ ∀ l ∈ (((readAll t).take k).flatMap Step.lines).dropLast,
            l.getLast? ≠ some '\r' := by
  obtain ⟨pre, hcut, hpre⟩ := linesBefore_eq hk
  rw [cutBefore, hcut]
  refine readAll_joinLines_iff hpre fun s hs => ?_
  exact legible_of_mem_readAll ((List.take_subset k _) hs)

/-- A text cut off before a step holds no more steps than stood before it. -/
theorem length_readAll_cutBefore_le {t : Text} {k : Nat} (hk : k < (readAll t).length) :
    (readAll (cutBefore k t)).length ≤ k := by
  obtain ⟨pre, hcut, hpre⟩ := linesBefore_eq hk
  have hlf : ∀ l ∈ linesBefore k t.lines, '\n' ∉ l := by
    intro l hl
    rw [hcut] at hl
    rcases List.mem_append.1 hl with hl | hl
    · exact (hpre l hl).2
    · obtain ⟨s, hs, hls⟩ := List.mem_flatMap.1 hl
      exact (legible_of_mem_readAll ((List.take_subset k _) hs)).not_mem_lines l hls
  refine Nat.le_trans (length_readAll_joinLines_le hlf) ?_
  rw [← length_group, group_linesBefore]
  exact List.length_take_le k _

-- ============================================================ the report

/-- A failed run whose record is a text cut off before the step at a
position is shown as failed in that step: everything before it is done,
everything behind it is not reached. -/
def FailsBehindCut (t : Text) (k : Nat) : Prop :=
  Partition.ofRun (readAll t) (readAll (cutBefore k t)) .fail
    = { done := (readAll t).take k
        failed := (readAll t)[k]?.toList
        todo := (readAll t).drop (k + 1) }

instance (t : Text) (k : Nat) : Decidable (FailsBehindCut t k) :=
  inferInstanceAs (Decidable (_ = _))

/-- If the step before the cut does not end in a blank line, the run is
shown as failed behind the cut exactly if no line of the steps before
it, but for the very last, ends in a return. -/
theorem failsBehindCut_iff {t : Text} {k : Nat} (hk : k < (readAll t).length)
    (hsolid : EndsSolid ((readAll t).take k)) :
    FailsBehindCut t k
      ↔ ∀ l ∈ (((readAll t).take k).flatMap Step.lines).dropLast,
          l.getLast? ≠ some '\r' := by
  have hrec := length_readAll_cutBefore_le hk
  show Partition.ofRun _ _ _ = Partition.failedAt (readAll t) k ↔ _
  rw [Partition.ofRun_fail_eq_failedAt_iff hk hrec, readAll_cutBefore_iff hk]
  exact and_iff_right hsolid

/-- Blank lines inside the step before the cut, and breaks of either
kind, do no harm. -/
theorem failsBehindCut_second :
    1 < (readAll "Intro\n1. Open\n\n   * wait\r\n2. Close\n\n".toList).length
      ∧ EndsSolid ((readAll "Intro\n1. Open\n\n   * wait\r\n2. Close\n\n".toList).take 1)
      ∧ FailsBehindCut "Intro\n1. Open\n\n   * wait\r\n2. Close\n\n".toList 1 := by
  refine ⟨by decide +kernel, by decide +kernel, ?_⟩
  exact (failsBehindCut_iff (by decide +kernel) (by decide +kernel)).2 (by decide +kernel)

/-- Cut off before the second of its two steps, neither of these texts
makes a run that is shown as failed there: the first has a line that
ends in a return before the cut, the second a blank line. -/
theorem not_failsBehindCut :
    (1 < (readAll "1. Open\r\r\n   * wait\n2. Close".toList).length
        ∧ ¬ FailsBehindCut "1. Open\r\r\n   * wait\n2. Close".toList 1)
      ∧ 1 < (readAll "1. Open\n\n2. Close".toList).length
        ∧ ¬ FailsBehindCut "1. Open\n\n2. Close".toList 1 := by
  decide +kernel

end Runsheet.Step
