/-
Numerals. The numerals that a sequence is written with do not show in a
report. Two references that differ in them, and in the blanks around
them, have the same report, whatever was recorded and however the runs
ended, if as many steps are done and as many failed.

A step comes into a report in two ways, by its title and by its body, and
so it does into the width of the box (`Step.Alike.rows_eq`,
`boxWidth_eq_of_alike`). The number it is shown with is that of its
place. The groups of a partition are pieces of the reference, one behind
the other; if the first two are as long in one report as in the other,
then all three hold steps from the same places.
-/
import Mathlib.Data.List.Forall2
import Runsheet.Report.Basic

namespace Runsheet

-- ========================================================= steps alike

/-- Steps that have the same title and the same body. Their headers may
have different numerals, and different blanks around them. -/
structure Step.Alike (s s' : Step) : Prop where
  title_eq : s.title = s'.title
  body_eq : s.body = s'.body

/-- A step is shown by its title and its body, never by its own numeral. -/
theorem Step.Alike.rows_eq {s s' : Step} (h : s.Alike s') (mark : Mark) (number : Nat) :
    s.rows mark number = s'.rows mark number := by
  rw [Step.rows, Step.rows, h.title_eq, h.body_eq]

/-- What goes by title, body and number is the same for all of them. -/
theorem flatMap_zipIdx_eq {β : Type _} {f : Step × Nat → List β}
    (hf : ∀ s s' number, Step.Alike s s' → f (s, number) = f (s', number))
    {steps steps' : List Step} (h : List.Forall₂ Step.Alike steps steps') (number : Nat) :
    (steps.zipIdx number).flatMap f = (steps'.zipIdx number).flatMap f := by
  induction h generalizing number with
  | nil => rfl
  | cons halike _ ih =>
      rw [List.zipIdx_cons, List.zipIdx_cons, List.flatMap_cons, List.flatMap_cons,
        hf _ _ number halike, ih]

/-- Neighbouring steps of one mark are shown by their titles, bodies and
numbers. -/
theorem stepRows_eq_of_alike {steps steps' : List Step}
    (h : List.Forall₂ Step.Alike steps steps') (mark : Mark) (number : Nat) :
    stepRows mark number steps = stepRows mark number steps' :=
  flatMap_zipIdx_eq (fun _ _ number halike => halike.rows_eq mark number) h number

/-- The box is measured by titles and bodies. -/
theorem boxWidth_eq_of_alike {ref ref' : List Step} (h : List.Forall₂ Step.Alike ref ref') :
    boxWidth ref = boxWidth ref' := by
  have hmeasured := flatMap_zipIdx_eq (f := fun e => numbered e.2 e.1.title :: e.1.body)
    (fun s s' number halike => by rw [halike.title_eq, halike.body_eq]) h 1
  rw [boxWidth, boxWidth, hmeasured]

-- ==================================================== partitions alike

/-- Lists that are alike one by one, cut after as many elements, fall into
pieces that are. -/
theorem forall₂_of_append {α β : Type _} {r : α → β → Prop} {a b : List α} {a' b' : List β}
    (h : List.Forall₂ r (a ++ b) (a' ++ b')) (hlen : a.length = a'.length) :
    List.Forall₂ r a a' ∧ List.Forall₂ r b b' := by
  have hfront := List.forall₂_take_append _ _ _ h
  have hback := List.forall₂_drop_append _ _ _ h
  rw [← hlen] at hfront hback
  rw [List.take_left] at hfront
  rw [List.drop_left] at hback
  exact ⟨hfront, hback⟩

namespace Partition

/-- Partitions whose groups hold steps that are alike, one by one. -/
structure Alike (p p' : Partition Step) : Prop where
  done : List.Forall₂ Step.Alike p.done p'.done
  failed : List.Forall₂ Step.Alike p.failed p'.failed
  todo : List.Forall₂ Step.Alike p.todo p'.todo

/-- Cut at the same places, references that are alike give partitions that
are. -/
theorem alike_of_all {p p' : Partition Step} (h : List.Forall₂ Step.Alike p.all p'.all)
    (hdone : p.done.length = p'.done.length) (hfailed : p.failed.length = p'.failed.length) :
    Alike p p' := by
  obtain ⟨hreached, htodo⟩ := forall₂_of_append h (by simp [hdone, hfailed])
  obtain ⟨hfirst, hsecond⟩ := forall₂_of_append hreached hdone
  exact ⟨hfirst, hsecond, htodo⟩

/-- Partitions that are alike are shown alike: equal lengths part the groups
at the same places. -/
theorem Alike.rows_eq {p p' : Partition Step} (h : Alike p p') : p.rows = p'.rows := by
  have hdone := h.done.length_eq
  have hfailed := h.failed.length_eq
  have htodo := h.todo.length_eq
  have hbox : p.boxRows = p'.boxRows := by
    rw [boxRows, boxRows, hdone]
    exact flatMap_zipIdx_eq (fun _ _ number halike => by rw [halike.rows_eq]) h.failed _
  have hempty : ∀ {l l' : List Step}, l.length = l'.length → l.isEmpty = l'.isEmpty := by
    intro l l' hlen
    rw [Bool.eq_iff_iff, List.isEmpty_iff_length_eq_zero, List.isEmpty_iff_length_eq_zero,
      hlen]
  have hparting : p.parting = p'.parting := by
    rw [parting, parting, hempty hdone, hempty hfailed, hempty htodo]
  rw [rows, rows, stepRows_eq_of_alike h.done, hbox, hparting, hdone, hfailed,
    stepRows_eq_of_alike h.todo]

end Partition

/-- The numerals of a sequence do not show. References that are alike step
by step have one report, as long as their runs have as many steps done
and as many failed. -/
theorem report_ignores_numerals {ref ref' : List Step}
    (h : List.Forall₂ Step.Alike ref ref') {rec rec' : List Step} {status status' : Status}
    (hdone : (Partition.ofRun ref rec status).done.length
      = (Partition.ofRun ref' rec' status').done.length)
    (hfailed : (Partition.ofRun ref rec status).failed.length
      = (Partition.ofRun ref' rec' status').failed.length) :
    report ref rec status = report ref' rec' status' := by
  have hall : List.Forall₂ Step.Alike (Partition.ofRun ref rec status).all
      (Partition.ofRun ref' rec' status').all := by
    rw [Partition.all_ofRun, Partition.all_ofRun]
    exact h
  rw [report, report, (Partition.alike_of_all hall hdone hfailed).rows_eq,
    boxWidth_eq_of_alike h]

/-- A sequence and the same one badly numbered, a run that passed with its
first step recorded and one that was aborted in a first step of its own. -/
theorem report_ignores_numerals_aborted :
    let ref : List Step := [⟨"1. Open".toList, ["   * wait".toList]⟩, ⟨"2. Close".toList, []⟩]
    let ref' : List Step := [⟨"07.  Open".toList, ["   * wait".toList]⟩,
      ⟨"7.\tClose".toList, []⟩]
    List.Forall₂ Step.Alike ref ref'
      ∧ report ref (ref.take 1) .pass = report ref' [⟨"1. Crash".toList, []⟩] .abort := by
  intro ref ref'
  have h : List.Forall₂ Step.Alike ref ref' :=
    .cons ⟨by decide +kernel, rfl⟩ (.cons ⟨by decide +kernel, rfl⟩ .nil)
  exact ⟨h, report_ignores_numerals h (by decide +kernel) (by decide +kernel)⟩

end Runsheet
