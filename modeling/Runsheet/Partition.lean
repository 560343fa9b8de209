/-
Partitions. A report divides the reference steps into those that are
done, the one that failed if any, and those not reached. The three
lists are the reference cut at one position, with or without the step
at that position set apart; so put together they are the reference
again, whatever the position (`all_completed`, `all_failedAt`).
-/
namespace Runsheet

variable {α : Type _}

/-- The reference steps by what became of them. -/
structure Partition (α : Type _) where
  done : List α
  failed : List α
  todo : List α
  deriving DecidableEq, Repr

namespace Partition

/-- All steps of a partition, in the order of the reference. -/
def all (p : Partition α) : List α := p.done ++ p.failed ++ p.todo

/-- How many steps a partition holds. -/
def size (p : Partition α) : Nat := p.done.length + p.failed.length + p.todo.length

/-- The first `n` steps are done and none failed. -/
def completed (ref : List α) (n : Nat) : Partition α :=
  ⟨ref.take n, [], ref.drop n⟩

/-- The step at position `i` failed; there is none to fail behind the
end. -/
def failedAt (ref : List α) (i : Nat) : Partition α :=
  ⟨ref.take i, ref[i]?.toList, ref.drop (i + 1)⟩

-- ========================================================= conservation

/-- A completed partition leaves no step out. -/
@[simp] theorem all_completed (ref : List α) (n : Nat) : (completed ref n).all = ref := by
  simp [all, completed]

/-- A partition that fails leaves no step out. -/
@[simp] theorem all_failedAt (ref : List α) (i : Nat) : (failedAt ref i).all = ref := by
  have h : ref[i]?.toList ++ ref.drop (i + 1) = ref.drop i := by
    cases hi : ref[i]? with
    | none =>
      have := List.getElem?_eq_none_iff.1 hi
      simp [List.drop_eq_nil_of_le this, List.drop_eq_nil_of_le (Nat.le_succ_of_le this)]
    | some x =>
      obtain ⟨hlt, rfl⟩ := List.getElem?_eq_some_iff.1 hi
      simp
  simp [all, failedAt, h]

/-- The size counts every step once. -/
theorem size_eq_length_all (p : Partition α) : p.size = p.all.length := by
  simp [size, all, Nat.add_assoc]

/-- A step is set apart exactly when the position lies in the reference. -/
theorem length_failed_failedAt (ref : List α) (i : Nat) :
    (failedAt ref i).failed.length = if i < ref.length then 1 else 0 := by
  simp only [failedAt]
  split
  · next h => simp [h]
  · next h => simp [List.getElem?_eq_none (Nat.le_of_not_lt h)]

theorem length_done_completed {ref : List α} {n : Nat} (h : n ≤ ref.length) :
    (completed ref n).done.length = n := by
  rw [completed, List.length_take, Nat.min_eq_left h]

/-- With more steps completed, those done before are done still. -/
theorem done_completed_isPrefix (ref : List α) {n n' : Nat} (h : n ≤ n') :
    (completed ref n).done <+: (completed ref n').done :=
  List.take_prefix_take_left h

theorem done_failedAt_isPrefix (ref : List α) {i i' : Nat} (h : i ≤ i') :
    (failedAt ref i).done <+: (failedAt ref i').done :=
  List.take_prefix_take_left h

/-- The step at position `i` failed: all before it is done, all behind
it is not reached. -/
def FailsAt (ref : List α) (i : Nat) (p : Partition α) : Prop :=
  ∃ h : i < ref.length, p = ⟨ref.take i, [ref[i]], ref.drop (i + 1)⟩

/-- A partition that fails at a step of the reference has just that step for
its failure. -/
theorem failsAt_failedAt {ref : List α} {i : Nat} (h : i < ref.length) :
    FailsAt ref i (failedAt ref i) := by
  refine ⟨h, ?_⟩
  rw [failedAt, List.getElem?_eq_getElem h, Option.toList_some]

/-- Two positions in the reference set different steps apart. -/
theorem failedAt_eq_iff {ref : List α} {i j : Nat} (hi : i < ref.length)
    (hj : j < ref.length) : failedAt ref i = failedAt ref j ↔ i = j := by
  constructor
  · intro h
    have hd := congrArg (fun p => p.done.length) h
    simp only [failedAt, List.length_take] at hd
    omega
  · intro h
    rw [h]

end Partition

end Runsheet
