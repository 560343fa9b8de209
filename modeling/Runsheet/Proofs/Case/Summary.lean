/-
Summaries. A run that comes to its end closes with the summary of its
case. A warning fits a failed outcome, a success any other; but what
decides between the two is whether a step is set apart as failed.

# Where the two differ

A step is set apart for a failed outcome and for no other, and then only
if there is a step to fail in (`Partition.Conserves`). So the closing
notice fits its outcome in every case but one: a failed outcome of a
sequence without steps is closed with a success, whose words say that
the test failed (`Case.summary_eq_verdict_iff`).

Nothing is said behind the summary, whatever the files are and wherever
the report went, so this is so for every run
(`Request.getLast?_notices_of_run_ok`).
-/
import Runsheet.Proofs.Delivery
import Runsheet.Proofs.Document.Section
import Runsheet.Proofs.Progress.Conservation

namespace Runsheet

namespace Case

variable {c : Case}

/-- What the summary says. -/
def words (c : Case) : Text := c.outcome.summary c.partition

/-- The closing notice that fits the outcome: a warning for a failure, a
success for anything else. -/
def verdict (c : Case) : Notice :=
  if c.outcome.status = .fail then .warn c.words else .success c.words

/-- A step is set apart for a failure, if there is one to fail in. -/
theorem isEmpty_failed_partition_iff :
    c.partition.failed.isEmpty = true
      ↔ ¬ (c.outcome.status = .fail ∧ c.reference ≠ []) := by
  have hconserves := Partition.conserves_ofRun c.reference c.record c.outcome.status
  have hle : c.partition.failed.length ≤ 1 := hconserves.length_failed_le
  have hone : c.partition.failed.length = 1
      ↔ c.outcome.status = .fail ∧ c.reference ≠ [] := hconserves.length_failed_eq_one_iff
  rw [← hone, List.isEmpty_iff_length_eq_zero]
  omega

/-- A failed test with steps to fail at ends in a warning. -/
theorem summary_of_failed_step (hstatus : c.outcome.status = .fail) (href : c.reference ≠ []) :
    c.summary = .warn c.words := by
  have hset : ¬ c.partition.failed.isEmpty = true :=
    mt isEmpty_failed_partition_iff.1 (not_not_intro ⟨hstatus, href⟩)
  exact if_neg hset

/-- A test without a failed step ends as a success, a failed one without
steps included. -/
theorem summary_of_no_failed_step (h : ¬ (c.outcome.status = .fail ∧ c.reference ≠ [])) :
    c.summary = .success c.words :=
  if_pos (isEmpty_failed_partition_iff.2 h)

/-- The summary fits the outcome, but for a failure with no step to fail
in. -/
theorem summary_eq_verdict_iff :
    c.summary = c.verdict ↔ ¬ (c.outcome.status = .fail ∧ c.reference = []) := by
  by_cases hstatus : c.outcome.status = .fail
  · rw [verdict, if_pos hstatus]
    by_cases href : c.reference = []
    · rw [summary_of_no_failed_step fun h => h.2 href]
      exact iff_of_false nofun (not_not_intro ⟨hstatus, href⟩)
    · rw [summary_of_failed_step hstatus href]
      exact iff_of_true rfl fun h => href h.2
  · rw [verdict, if_neg hstatus, summary_of_no_failed_step fun h => hstatus h.1]
    exact iff_of_true rfl fun h => hstatus h.1

end Case

namespace Request

variable {q : Request} {t : FileTree} {c : Case}

/-- The summary is the last thing said. -/
theorem getLast?_notices_of_run_ok (hrun : (q.run t).result = .ok c) :
    (q.run t).notices.getLast? = some c.summary := by
  obtain ⟨hload, t', n, hdeliver⟩ := exists_deliver_of_run_ok hrun
  rw [run_eq_of_deliver_ok hload hdeliver]
  simp

/-- A run that comes to its end closes with a summary that fits the
outcome, exactly if the outcome is no failure or the sequence asked for
has steps. A failure is closed with a success exactly if it has none. -/
theorem run_closes_fittingly_iff (hrun : (q.run t).result = .ok c) :
    Source.steps t q.sequences (some q.name) = .ok c.reference
      ∧ ((q.run t).notices.getLast? = some c.verdict
          ↔ ¬ (c.outcome.status = .fail ∧ c.reference = []))
      ∧ (c.outcome.status = .fail →
          ((q.run t).notices.getLast? = some (.success c.words) ↔ c.reference = [])) := by
  have hload := (exists_deliver_of_run_ok hrun).1
  rw [getLast?_notices_of_run_ok hrun, Option.some.injEq, Option.some.injEq]
  refine ⟨(load_eq_ok_iff.1 hload).1, Case.summary_eq_verdict_iff, fun hstatus => ?_⟩
  by_cases href : c.reference = []
  · rw [Case.summary_of_no_failed_step fun h => h.2 href]
    exact iff_of_true rfl href
  · rw [Case.summary_of_failed_step hstatus href]
    exact iff_of_false nofun href

/-- A record that holds every step of a sequence, of a run that failed:
it closes with a warning. -/
theorem run_closes_fittingly_iff_last_step :
    (run ⟨['r'], ['r'], ['t'], some .fail, none, none⟩
          (Document.treeOf "## t\n1. Open".toList)).result
        = .ok ⟨[⟨"1. Open".toList, []⟩], [⟨"1. Open".toList, []⟩], ⟨.fail, ['t']⟩⟩
      ∧ (run ⟨['r'], ['r'], ['t'], some .fail, none, none⟩
          (Document.treeOf "## t\n1. Open".toList)).notices.getLast?
        = some (.warn "t: FAIL (0/1 steps done)".toList) := by
  have hrun : (run ⟨['r'], ['r'], ['t'], some .fail, none, none⟩
        (Document.treeOf "## t\n1. Open".toList)).result
      = .ok ⟨[⟨"1. Open".toList, []⟩], [⟨"1. Open".toList, []⟩], ⟨.fail, ['t']⟩⟩ := rfl
  exact ⟨hrun, (run_closes_fittingly_iff hrun).2.1.2 nofun⟩

/-- A section without steps: the words tell a failure, and they come as a
success. -/
theorem failure_closed_with_success :
    (run ⟨['r'], ['r'], ['t'], some .fail, none, none⟩
          (Document.treeOf "## t".toList)).result = .ok ⟨[], [], ⟨.fail, ['t']⟩⟩
      ∧ (run ⟨['r'], ['r'], ['t'], some .fail, none, none⟩
          (Document.treeOf "## t".toList)).notices.getLast?
        = some (.success "t: FAIL (0/0 steps done)".toList)
      ∧ Case.verdict ⟨[], [], ⟨.fail, ['t']⟩⟩ = .warn "t: FAIL (0/0 steps done)".toList := by
  refine ⟨rfl, ?_, rfl⟩
  decide +kernel

end Request

end Runsheet
