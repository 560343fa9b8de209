/-
The partition of a report beside the one that the boundary alone
decides. A report knows one case better; this module says which, and by
how much.

# The case

A failed run may have recorded something, all of it as the reference
has it, and less than the whole reference (`StopsShort`). The boundary
is then the last recorded step, and the boundary alone makes that step
the failed one. A report takes it for done and puts the failure in the
step behind it.

# Why it is the only one

By the closed forms both partitions of a failed run set one step apart,
at `min p (m - 1)` in a report and at `min p (min m k - 1)` by the
boundary, where `p` steps are shared and `m` and `k` are the lengths of
reference and record. So they can only part where the record ends first
and nothing in it differs, `p = k < m`. Before anything was recorded
there is no step in front of the boundary, and both put the failure in
the first step.
-/
import Runsheet.Proofs.Progress.Agreement

namespace Runsheet

variable {α : Type _}

-- ========================================================= one further

namespace Partition

/-- The same partition with the failure one step further on: the step
that failed is done, and the first step not reached has failed. -/
def OneFurther (p q : Partition α) : Prop :=
  ∃ done x y todo, p = ⟨done, [x], y :: todo⟩ ∧ q = ⟨done ++ [x], [y], todo⟩

/-- One step further is elsewhere. -/
theorem OneFurther.ne {p q : Partition α} (h : OneFurther p q) : q ≠ p := by
  obtain ⟨done, x, y, todo, rfl, rfl⟩ := h
  intro heq
  have hlen := congrArg (fun r => r.done.length) heq
  simp at hlen

/-- Neighbouring positions are one step apart. -/
theorem oneFurther_failedAt {ref : List α} {i : Nat} (h : i + 1 < ref.length) :
    OneFurther (failedAt ref i) (failedAt ref (i + 1)) := by
  have hi : i < ref.length := Nat.lt_of_succ_lt h
  refine ⟨ref.take i, ref[i], ref[i + 1], ref.drop (i + 2), ?_, ?_⟩
  · rw [failedAt, List.getElem?_eq_getElem hi, List.drop_eq_getElem_cons h]
    rfl
  · rw [failedAt, List.getElem?_eq_getElem h, List.take_succ_eq_append_getElem hi]
    rfl

end Partition

-- ============================================================ the case

variable [DecidableEq α]

/-- A failed run that recorded something, all of it as the reference has
it, and stopped before the reference ends. -/
structure StopsShort (ref rec : List α) (status : Status) : Prop where
  failed : status = .fail
  recorded : rec ≠ []
  agrees : rec <+: ref
  short : rec.length < ref.length

/-- In terms of the steps that reference and record share. -/
theorem stopsShort_fail_iff {ref rec : List α} :
    StopsShort ref rec .fail
      ↔ 0 < rec.length ∧ (commonPrefix ref rec).length = rec.length
        ∧ rec.length < ref.length := by
  rw [List.length_pos_iff, length_commonPrefix_eq_iff]
  constructor
  · intro h
    exact ⟨h.recorded, h.agrees, h.short⟩
  · intro h
    obtain ⟨hrec, hpre, hlt⟩ := h
    exact ⟨rfl, hrec, hpre, hlt⟩

namespace Partition

/-- Where a run stops short, the report puts the failure behind what was
recorded. -/
theorem ofRun_oneFurther {ref rec : List α} {status : Status}
    (h : StopsShort ref rec status) :
    OneFurther (byBoundary ref rec status) (ofRun ref rec status) := by
  obtain rfl := h.failed
  obtain ⟨hpos, hp, hlt⟩ := stopsShort_fail_iff.1 h
  -- the boundary is the last recorded step, the report's failure the next
  have hboundary : min (commonPrefix ref rec).length (min ref.length rec.length - 1)
      = rec.length - 1 := by omega
  have hreport : min (commonPrefix ref rec).length (ref.length - 1)
      = rec.length - 1 + 1 := by omega
  rw [byBoundary_fail_eq, ofRun_fail_eq, hboundary, hreport]
  apply oneFurther_failedAt
  omega

/-- Elsewhere it keeps to the boundary. -/
theorem ofRun_eq_byBoundary_of_not_stopsShort {ref rec : List α} {status : Status}
    (h : ¬ StopsShort ref rec status) :
    ofRun ref rec status = byBoundary ref rec status := by
  by_cases hs : status = .fail
  · subst hs
    have hle := length_commonPrefix_le ref rec
    rw [stopsShort_fail_iff] at h
    rw [ofRun_fail_eq, byBoundary_fail_eq]
    congr 1
    omega
  · exact ofRun_eq_byBoundary hs ref rec

/-- The report's partition is the one that the boundary decides, unless a
failed run recorded a beginning of the reference, not empty and not the
whole. In exactly that case the two differ, and the report's is the other
with the failure one step further on. -/
theorem ofRun_refines_byBoundary (ref rec : List α) (status : Status) :
    (ofRun ref rec status = byBoundary ref rec status ↔ ¬ StopsShort ref rec status)
      ∧ (OneFurther (byBoundary ref rec status) (ofRun ref rec status)
          ↔ StopsShort ref rec status) := by
  by_cases h : StopsShort ref rec status
  · have hone := ofRun_oneFurther h
    exact ⟨iff_of_false hone.ne (not_not_intro h), iff_of_true hone h⟩
  · have heq := ofRun_eq_byBoundary_of_not_stopsShort h
    exact ⟨iff_of_true heq h, iff_of_false (fun hone => hone.ne heq) h⟩

/-- A step recorded as the reference has it is done, and the next one
failed; of an empty record both partitions say the same. -/
example : byBoundary [1, 2, 3] [1] .fail = ⟨[], [1], [2, 3]⟩
    ∧ ofRun [1, 2, 3] [1] .fail = ⟨[1], [2], [3]⟩
    ∧ ofRun [1, 2, 3] [] .fail = byBoundary [1, 2, 3] [] .fail := by decide

end Partition

end Runsheet
