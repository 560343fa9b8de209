/-
Progress in closed form. Reference and record agree up to some step;
everything that progress says of a run is decided by how many steps
that is, and by the two lengths.

# The closed form

Let `p` be the length of the common prefix, `m` and `k` the lengths of
reference and record. Steps are compared as wholes, which for the steps
of a sequence is line by line (`Step.lines_inj`).

- The first difference lies at `p`, if both lists reach that far; there
  is none otherwise (`firstDifference?_eq`).
- The boundary is `min p (min m k - 1)` (`boundary_eq`): where agreement
  ends, or the last position that both lists hold.
- Without a failure the boundary step is done too, so `min (p + 1)
  (min m k)` steps are (`byBoundary_eq_completed`).
- A failed run is shown as failed at `min p (m - 1)` (`ofRun_fail_eq`).
  The three cases of the definition collapse: a record that differs
  fails at its first difference `p`; one that matches and stops early
  fails behind its last step, again `p`; one that matches to the end
  fails in the last step, `m - 1`.

`DecidedBy` says all of this at once. The common prefix is what carries
the induction; `zip` and the search for an index are unfolded once,
here, and nowhere else.
-/
import Runsheet.Progress

namespace Runsheet

variable {α : Type _} [DecidableEq α]

-- ================================================== the common prefix

/-- What is shared begins the reference. -/
theorem commonPrefix_isPrefix_left (ref rec : List α) :
    commonPrefix ref rec <+: ref :=
  (isPrefix_commonPrefix_iff.1 (List.prefix_refl _)).1

/-- What is shared begins the record, too. -/
theorem commonPrefix_isPrefix_right (ref rec : List α) :
    commonPrefix ref rec <+: rec :=
  (isPrefix_commonPrefix_iff.1 (List.prefix_refl _)).2

/-- No more is shared than either list holds. -/
theorem length_commonPrefix_le (ref rec : List α) :
    (commonPrefix ref rec).length ≤ min ref.length rec.length :=
  Nat.le_min.2 ⟨(commonPrefix_isPrefix_left ref rec).length_le,
    (commonPrefix_isPrefix_right ref rec).length_le⟩

/-- So many steps are shared exactly if both lists reach that far and
begin alike up to there. -/
theorem le_length_commonPrefix_iff {ref rec : List α} {n : Nat} :
    n ≤ (commonPrefix ref rec).length
      ↔ n ≤ ref.length ∧ n ≤ rec.length ∧ ref.take n = rec.take n := by
  have hle := length_commonPrefix_le ref rec
  constructor
  · intro h
    have htake : ∀ l : List α, commonPrefix ref rec <+: l →
        (commonPrefix ref rec).take n = l.take n := by
      intro l hl
      rw [List.prefix_iff_eq_take.1 hl, List.take_take, Nat.min_eq_left h]
    refine ⟨by omega, by omega, ?_⟩
    rw [← htake ref (commonPrefix_isPrefix_left ref rec),
      ← htake rec (commonPrefix_isPrefix_right ref rec)]
  · intro h
    obtain ⟨href, hrec, heq⟩ := h
    -- of all shared beginnings the common prefix is the longest
    have hpre : ref.take n <+: commonPrefix ref rec := by
      apply isPrefix_commonPrefix_iff.2
      exact ⟨List.take_prefix n ref, heq ▸ List.take_prefix n rec⟩
    have hlen := hpre.length_le
    rw [List.length_take, Nat.min_eq_left href] at hlen
    exact hlen

/-- Where all steps before are shared, the step is shared exactly if both
lists hold the same one. -/
theorem getElem_eq_iff_lt_length_commonPrefix {ref rec : List α} {i : Nat}
    (hi : i ≤ (commonPrefix ref rec).length) (href : i < ref.length)
    (hrec : i < rec.length) :
    ref[i] = rec[i] ↔ i < (commonPrefix ref rec).length := by
  have hbefore := (le_length_commonPrefix_iff.1 hi).2.2
  rw [← Nat.succ_le_iff, le_length_commonPrefix_iff, List.take_succ_eq_append_getElem href,
    List.take_succ_eq_append_getElem hrec, hbefore]
  constructor
  · intro h
    exact ⟨href, hrec, by rw [h]⟩
  · intro h
    exact List.singleton_inj.1 (List.append_cancel_left h.2.2)

/-- The record agrees to its end exactly if it begins the reference. -/
theorem length_commonPrefix_eq_iff {ref rec : List α} :
    (commonPrefix ref rec).length = rec.length ↔ rec <+: ref := by
  constructor
  · intro h
    have hrec := (commonPrefix_isPrefix_right ref rec).eq_of_length h
    have hpre := commonPrefix_isPrefix_left ref rec
    rw [hrec] at hpre
    exact hpre
  · intro h
    have hle := (isPrefix_commonPrefix_iff.2 ⟨h, List.prefix_refl rec⟩).length_le
    have := (commonPrefix_isPrefix_right ref rec).length_le
    omega

-- =============================================== the first difference

/-- The lists first differ where the common prefix ends, if both go on. -/
theorem firstDifference?_eq (ref rec : List α) :
    firstDifference? ref rec
      = if (commonPrefix ref rec).length < min ref.length rec.length
        then some (commonPrefix ref rec).length else none := by
  unfold firstDifference?
  -- over the reference: equal heads lengthen both sides by one, other heads end
  -- them
  induction ref generalizing rec with
  | nil => simp
  | cons r ref ih =>
      cases rec with
      | nil => simp
      | cons a rec =>
          rw [List.zip_cons_cons, List.findIdx?_cons]
          by_cases h : r = a
          · subst h
            have hp : commonPrefix (r :: ref) (r :: rec) = r :: commonPrefix ref rec := by
              rw [commonPrefix, if_pos rfl]
            rw [if_neg (by simp), ih, hp, List.length_cons, List.length_cons,
              List.length_cons, Nat.add_min_add_right]
            split
            · next hlt => rw [if_pos (Nat.succ_lt_succ hlt), Option.map_some]
            · next hge => rw [if_neg (mt Nat.lt_of_succ_lt_succ hge), Option.map_none]
          · have hp : commonPrefix (r :: ref) (a :: rec) = [] := by
              rw [commonPrefix, if_neg h]
            rw [if_pos (by simp [h]), hp, if_pos (by simp), List.length_nil]

/-- The boundary step differs exactly if agreement ends before either list
does. -/
theorem diverges_iff {ref rec : List α} :
    diverges ref rec = true
      ↔ (commonPrefix ref rec).length < min ref.length rec.length := by
  rw [diverges, firstDifference?_eq]
  split
  · next h => exact iff_of_true rfl h
  · next h => exact iff_of_false Bool.false_ne_true h

/-- The boundary is where agreement ends, or the last position that both
lists hold. -/
theorem boundary_eq (ref rec : List α) :
    boundary ref rec
      = min ((commonPrefix ref rec).length : Int)
          (min (ref.length : Int) rec.length - 1) := by
  have hle := length_commonPrefix_le ref rec
  rw [boundary, firstDifference?_eq]
  split
  · next i hi =>
    split at hi
    · cases hi
      omega
    · cases hi
  · next hi =>
    split at hi
    · cases hi
    · omega

-- ======================================================== partitions

namespace Partition

/-- The report shows what the boundary decides, unless the run failed. -/
theorem ofRun_eq_byBoundary {status : Status} (h : status ≠ .fail) (ref rec : List α) :
    ofRun ref rec status = byBoundary ref rec status := by
  rw [ofRun, if_neg fun hfail => h hfail.1]

/-- Without a failure the boundary step is done, as long as record and
reference hold it. -/
theorem byBoundary_eq_completed {status : Status} (h : status ≠ .fail) (ref rec : List α) :
    byBoundary ref rec status
      = completed ref
          (min ((commonPrefix ref rec).length + 1) (min ref.length rec.length)) := by
  rw [byBoundary, if_neg h, boundary_eq]
  congr 1
  omega

/-- A failure is put at the boundary, or in the first step before there
is one. -/
theorem byBoundary_fail_eq (ref rec : List α) :
    byBoundary ref rec .fail
      = failedAt ref
          (min (commonPrefix ref rec).length (min ref.length rec.length - 1)) := by
  rw [byBoundary, if_pos rfl, boundary_eq]
  congr 1
  omega

/-- A failed run is shown as failed where agreement ends, or in the last
step if it never does. -/
theorem ofRun_fail_eq (ref rec : List α) :
    ofRun ref rec .fail
      = failedAt ref (min (commonPrefix ref rec).length (ref.length - 1)) := by
  have hle := length_commonPrefix_le ref rec
  rw [ofRun]
  -- a record that agrees and is shorter than the reference has the failing step right
  -- behind it; with any other record the failing step is at the boundary
  split
  · next h =>
    obtain ⟨-, hd, hlt⟩ := h
    rw [diverges_iff] at hd
    congr 1
    omega
  · next h =>
    rw [diverges_iff] at h
    rw [byBoundary, if_pos rfl, boundary_eq]
    congr 1
    simp only [true_and, not_and, Nat.not_lt] at h
    omega

/-- A run that recorded no more than `k` steps is shown as failed at step
`k` exactly if it recorded the first `k` steps, just so. -/
theorem ofRun_fail_eq_failedAt_iff {ref rec : List α} {k : Nat}
    (hk : k < ref.length) (hrec : rec.length ≤ k) :
    ofRun ref rec .fail = failedAt ref k ↔ rec = ref.take k := by
  have hle := length_commonPrefix_le ref rec
  rw [ofRun_fail_eq, failedAt_eq_iff (by omega) hk]
  constructor
  · intro h
    have hlen : rec.length = k := by omega
    have hpre : rec <+: ref := length_commonPrefix_eq_iff.1 (by omega)
    rw [← hlen]
    exact List.prefix_iff_eq_take.1 hpre
  · intro h
    have hpre : rec <+: ref := h ▸ List.take_prefix k ref
    have hlen : rec.length = k := by
      rw [h, List.length_take]
      omega
    rw [length_commonPrefix_eq_iff.2 hpre]
    omega

-- ======================================================= the closed form

/-- Without a failure the step at which agreement ends is done, if both lists
hold it. -/
theorem length_done_of_ne_fail {status : Status} (h : status ≠ .fail) (ref rec : List α) :
    (byBoundary ref rec status).done.length
      = min ((commonPrefix ref rec).length + 1) (min ref.length rec.length) := by
  rw [byBoundary_eq_completed h]
  apply length_done_completed
  omega

/-- What a failed run is shown to have done, it has recorded. -/
theorem done_ofRun_fail_isPrefix (ref rec : List α) :
    (ofRun ref rec .fail).done <+: rec := by
  rw [ofRun_fail_eq]
  show ref.take _ <+: rec
  have hle : min (commonPrefix ref rec).length (ref.length - 1)
      ≤ (commonPrefix ref rec).length := Nat.min_le_left _ _
  rw [(le_length_commonPrefix_iff.1 hle).2.2]
  exact List.take_prefix _ rec

end Partition

/-- How far a run came, in terms of the number `p` of steps on which
reference and record agree before they first differ. -/
structure DecidedBy (ref rec : List α) (p : Nat) : Prop where
  /-- `p` is the length of the longest common prefix. -/
  agreement : ∀ n, n ≤ p ↔ n ≤ ref.length ∧ n ≤ rec.length ∧ ref.take n = rec.take n
  /-- The boundary is `p`, or the last position that both lists hold. -/
  boundary_eq : boundary ref rec = min (p : Int) (min (ref.length : Int) rec.length - 1)
  /-- Without a failure the steps up to the boundary are done, and the
  boundary step with them. -/
  length_done : ∀ status, status ≠ .fail →
    (Partition.ofRun ref rec status).done.length = min (p + 1) (min ref.length rec.length)
      ∧ (Partition.byBoundary ref rec status).done.length
        = min (p + 1) (min ref.length rec.length)
  /-- A failed run is shown as failed behind what it recorded as the
  reference has it, or in the last step; so what is done was recorded
  just so. -/
  ofRun_fail : 0 < ref.length →
    Partition.FailsAt ref (min p (ref.length - 1)) (Partition.ofRun ref rec .fail)
      ∧ (Partition.ofRun ref rec .fail).done <+: rec
  /-- The boundary alone puts the failure at the boundary, or in the first
  step. -/
  byBoundary_fail : 0 < ref.length →
    ∃ i : Nat, (i : Int) = max 0 (min (p : Int) (min (ref.length : Int) rec.length - 1))
      ∧ Partition.FailsAt ref i (Partition.byBoundary ref rec .fail)

/-- Everything that progress says of a run is decided by how far its
record agrees with the reference, and by the two lengths. -/
theorem decidedBy_length_commonPrefix (ref rec : List α) :
    DecidedBy ref rec (commonPrefix ref rec).length where
  agreement n := le_length_commonPrefix_iff
  boundary_eq := boundary_eq ref rec
  length_done := by
    intro status h
    have hlen := Partition.length_done_of_ne_fail h ref rec
    rw [Partition.ofRun_eq_byBoundary h]
    exact ⟨hlen, hlen⟩
  ofRun_fail := by
    intro hm
    refine ⟨?_, Partition.done_ofRun_fail_isPrefix ref rec⟩
    rw [Partition.ofRun_fail_eq]
    apply Partition.failsAt_failedAt
    omega
  byBoundary_fail := by
    intro hm
    refine ⟨min (commonPrefix ref rec).length (min ref.length rec.length - 1),
      by omega, ?_⟩
    rw [Partition.byBoundary_fail_eq]
    apply Partition.failsAt_failedAt
    omega

end Runsheet
