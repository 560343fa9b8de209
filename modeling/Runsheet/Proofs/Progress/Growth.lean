/-
Growing records. A run appends to its record as it goes, so one record
is the beginning of another. What was shown done stays done, whatever
comes behind; and at some point nothing that comes behind changes the
report any more.

# The argument

A longer record agrees with the reference at least as far, and no
further within the length of the shorter one: the shorter record's
agreement is the longer one's, cut at its length
(`length_commonPrefix_eq_min`). In closed form a partition is a cut of
the reference at a position that grows with agreement and length, and
two cuts of one list are prefixes of each other by position. So no case
has to be followed from the rule it falls under to the rule it falls
under later.

A record is settled when it differs from the reference at a position
that both hold, or has all the positions of the reference. Then the
closed form has no room to grow (`settled_iff`).
-/
import Runsheet.Proofs.Progress.Agreement
import Runsheet.Report.Basic

namespace Runsheet

section

variable {α : Type _} [DecidableEq α] {ref rec : List α}

-- ============================================================= agreement

/-- What is recorded later does not change how far the steps recorded so
far agree with the reference. -/
theorem length_commonPrefix_eq_min (ref rec more : List α) :
    (commonPrefix ref rec).length
      = min (commonPrefix ref (rec ++ more)).length rec.length := by
  have hsame : ∀ n, n ≤ rec.length →
      (n ≤ (commonPrefix ref rec).length ↔ n ≤ (commonPrefix ref (rec ++ more)).length) := by
    intro n hn
    rw [le_length_commonPrefix_iff, le_length_commonPrefix_iff,
      List.take_append_of_le_length hn, List.length_append]
    have hmore : n ≤ rec.length + more.length := by omega
    rw [and_iff_right hn, and_iff_right hmore]
  have hle := length_commonPrefix_le ref rec
  apply Nat.le_antisymm
  · apply Nat.le_min.2
    exact ⟨(hsame _ (by omega)).1 (Nat.le_refl _), by omega⟩
  · exact (hsame _ (Nat.min_le_right _ _)).2 (Nat.min_le_left _ _)

/-- Agreement ends where the lists hold different steps. -/
theorem length_commonPrefix_le_of_ne {i : Nat} {r a : α} (hr : ref[i]? = some r)
    (ha : rec[i]? = some a) (hne : r ≠ a) : (commonPrefix ref rec).length ≤ i := by
  obtain ⟨href, hr⟩ := List.getElem?_eq_some_iff.1 hr
  obtain ⟨hrec, ha⟩ := List.getElem?_eq_some_iff.1 ha
  apply Nat.le_of_not_lt
  intro h
  apply hne
  rw [← hr, ← ha]
  exact (getElem_eq_iff_lt_length_commonPrefix (Nat.le_of_lt h) href hrec).2 h

/-- Lists differ at a position that both hold exactly if agreement ends
before either does. -/
theorem exists_getElem?_ne_iff :
    (∃ i : Nat, ∃ r ∈ ref[i]?, ∃ a ∈ rec[i]?, r ≠ a)
      ↔ (commonPrefix ref rec).length < min ref.length rec.length := by
  constructor
  · intro h
    obtain ⟨i, r, hr, a, ha, hne⟩ := h
    have hle := length_commonPrefix_le_of_ne hr ha hne
    obtain ⟨href, -⟩ := List.getElem?_eq_some_iff.1 hr
    obtain ⟨hrec, -⟩ := List.getElem?_eq_some_iff.1 ha
    omega
  · intro h
    -- the lists differ where the common prefix ends, and nowhere before
    have href : (commonPrefix ref rec).length < ref.length := by omega
    have hrec : (commonPrefix ref rec).length < rec.length := by omega
    refine ⟨_, _, List.getElem?_eq_getElem href, _, List.getElem?_eq_getElem hrec, ?_⟩
    intro heq
    have := (getElem_eq_iff_lt_length_commonPrefix (Nat.le_refl _) href hrec).1 heq
    omega

-- ============================================================ partitions

namespace Partition

/-- By the boundary, what is done stays done as the record grows. -/
theorem done_byBoundary_isPrefix_append (ref rec more : List α) (status : Status) :
    (byBoundary ref rec status).done <+: (byBoundary ref (rec ++ more) status).done := by
  have hmin := length_commonPrefix_eq_min ref rec more
  have hlen : rec.length ≤ (rec ++ more).length := by
    rw [List.length_append]
    omega
  by_cases hs : status = .fail
  · subst hs
    rw [byBoundary_fail_eq, byBoundary_fail_eq]
    apply done_failedAt_isPrefix
    omega
  · rw [byBoundary_eq_completed hs, byBoundary_eq_completed hs]
    apply done_completed_isPrefix
    omega

/-- In the report, what is done stays done as the record grows. -/
theorem done_ofRun_isPrefix_append (ref rec more : List α) (status : Status) :
    (ofRun ref rec status).done <+: (ofRun ref (rec ++ more) status).done := by
  have hmin := length_commonPrefix_eq_min ref rec more
  by_cases hs : status = .fail
  · subst hs
    rw [ofRun_fail_eq, ofRun_fail_eq]
    apply done_failedAt_isPrefix
    omega
  · rw [ofRun_eq_byBoundary hs, ofRun_eq_byBoundary hs]
    exact done_byBoundary_isPrefix_append ref rec more status

end Partition

-- ======================================================= settled records

/-- Record and reference differ at a position that both hold, or the
record has all the positions of the reference. -/
def Settled (ref rec : List α) : Prop :=
  (∃ i : Nat, ∃ r ∈ ref[i]?, ∃ a ∈ rec[i]?, r ≠ a) ∨ ref.length ≤ rec.length

/-- A record is settled if agreement ends inside both lists, or the reference
is used up. -/
theorem settled_iff :
    Settled ref rec ↔ (commonPrefix ref rec).length < min ref.length rec.length
      ∨ ref.length ≤ rec.length := by
  rw [Settled, exists_getElem?_ne_iff]

/-- Behind a settled record agreement does not grow. -/
theorem Settled.length_commonPrefix_append (h : Settled ref rec) (more : List α) :
    (commonPrefix ref (rec ++ more)).length = (commonPrefix ref rec).length := by
  have hmin := length_commonPrefix_eq_min ref rec more
  have hle := length_commonPrefix_le ref (rec ++ more)
  rw [settled_iff] at h
  omega

/-- By the boundary, a settled record has nothing more to say. -/
theorem Settled.byBoundary_append (h : Settled ref rec) (more : List α) (status : Status) :
    Partition.byBoundary ref (rec ++ more) status = Partition.byBoundary ref rec status := by
  have hp := h.length_commonPrefix_append more
  have hlen : (rec ++ more).length = rec.length + more.length := List.length_append
  rw [settled_iff] at h
  by_cases hs : status = .fail
  · subst hs
    rw [Partition.byBoundary_fail_eq, Partition.byBoundary_fail_eq, hp]
    congr 1
    omega
  · rw [Partition.byBoundary_eq_completed hs, Partition.byBoundary_eq_completed hs, hp]
    congr 1
    omega

/-- In the report, a settled record has nothing more to say. -/
theorem Settled.ofRun_append (h : Settled ref rec) (more : List α) (status : Status) :
    Partition.ofRun ref (rec ++ more) status = Partition.ofRun ref rec status := by
  by_cases hs : status = .fail
  · subst hs
    rw [Partition.ofRun_fail_eq, Partition.ofRun_fail_eq, h.length_commonPrefix_append]
  · rw [Partition.ofRun_eq_byBoundary hs, Partition.ofRun_eq_byBoundary hs]
    exact h.byBoundary_append more status

end

-- ================================================================ reports

/-- As a record grows the steps shown done stay done; and once it is
settled, neither partition changes any more, nor does the report. -/
theorem progress_grows_and_settles (ref rec more : List Step) (status : Status) :
    ((Partition.ofRun ref rec status).done
          <+: (Partition.ofRun ref (rec ++ more) status).done
        ∧ (Partition.byBoundary ref rec status).done
          <+: (Partition.byBoundary ref (rec ++ more) status).done)
      ∧ ((∃ i : Nat, ∃ s ∈ ref[i]?, ∃ s' ∈ rec[i]?, s.lines ≠ s'.lines)
            ∨ ref.length ≤ rec.length →
          Partition.ofRun ref (rec ++ more) status = Partition.ofRun ref rec status
            ∧ Partition.byBoundary ref (rec ++ more) status
              = Partition.byBoundary ref rec status
            ∧ report ref (rec ++ more) status = report ref rec status) := by
  refine ⟨⟨?_, ?_⟩, ?_⟩
  · exact Partition.done_ofRun_isPrefix_append ref rec more status
  · exact Partition.done_byBoundary_isPrefix_append ref rec more status
  · -- steps are the same exactly if their lines are
    simp only [Ne, Step.lines_inj]
    intro h
    have hsettled : Settled ref rec := h
    have hshown := hsettled.ofRun_append more status
    refine ⟨hshown, hsettled.byBoundary_append more status, ?_⟩
    rw [report, report, hshown]

/-- A failed run moves its failure on as it records what the reference
says, and stays where it is once it records something else. -/
example :
    Partition.ofRun [1, 2, 3] [1] .fail = ⟨[1], [2], [3]⟩
      ∧ Partition.ofRun [1, 2, 3] [1, 2] .fail = ⟨[1, 2], [3], []⟩
      ∧ Partition.ofRun [1, 2, 3] [1, 2, 5] .fail = ⟨[1, 2], [3], []⟩ := by
  decide

end Runsheet
