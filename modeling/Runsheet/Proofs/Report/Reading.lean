/-
Reports read back. A report loses nothing of what it shows: from its
text alone one can tell which steps were done, which one failed and
which were not reached, with the title of each and its body up to what
is in blank lines. Two reports with the same text show the same.

# The reader

`read` never sees the reference, the record or the width of the box. It
takes the lines of the text from the right, one at a time, and gathers
them until a heading comes (`place`), as the lines of a sequence are
gathered until a header comes (`Step.place`).

- An edge ends whatever was gathered: behind the failed step stands its
  lower edge, so the rows between the box and the next heading are lost
  there, and the empty row above the box is gathered on its own.
- A heading takes what was gathered for its body.
- Everything else is gathered, less the column it stands at. An empty
  line has nothing to lose, and so empty rows and blank body lines come
  out alike.

# What cannot be confused

A heading without a mark and a body line both stand behind four blanks.
No line of a body is a header, and a heading's numeral, point and blank
make it one, so `afterNumeral?` tells the two apart. Body lines are
never flush left, so none is an edge.

An empty row may close a body or part two groups of rows. `read` does
not decide that line by line. Whatever the shape of the partition, just
one empty row stands behind the last done step, just one behind the
last step not reached, and none is gathered behind the failed one. So
the last body of either group ends in one row too many (`closed`).
-/
import Runsheet.Proofs.Report.Rows

namespace Runsheet

-- ======================================================== what is shown

/-- A step as a report shows it. -/
structure Shown where
  title : Text
  details : List Text
  deriving DecidableEq, Repr

/-- A line, or nothing in place of a blank one. -/
def Text.emptied (t : Text) : Text := if t.allBlank then [] else t

def Step.shown (s : Step) : Shown := ⟨s.title, s.body.map Text.emptied⟩

/-- A partition with every step replaced by what stands for it. -/
def Partition.map {α β : Type _} (f : α → β) (p : Partition α) : Partition β :=
  ⟨p.done.map f, p.failed.map f, p.todo.map f⟩

namespace Reading

-- ============================================================ the reader

/-- The mark at the left edge of a line. -/
def markOf (line : Text) : Mark :=
  if Mark.done.marker.isPrefixOf line then .done
  else if Mark.failed.marker.isPrefixOf line then .failed
  else .todo

/-- The mark and the title in a heading; nothing if the line is none. -/
def heading? (line : Text) : Option (Mark × Text) :=
  let mark := markOf line
  let shown := line.drop stepColumn
  (afterNumeral? (shown.take (shown.length - mark.suffix.length))).map (mark, ·)

/-- Puts one more line in front of the lines gathered and the steps read
so far. -/
def place (line : Text) (r : List Text × List (Mark × Shown)) :
    List Text × List (Mark × Shown) :=
  if line.head? = some '-' then ([], r.2)
  else
    match heading? line with
    | some (mark, title) => ([], (mark, ⟨title, r.1⟩) :: r.2)
    | none => (line.drop stepColumn :: r.1, r.2)

/-- The steps of one mark. -/
def shownAs (mark : Mark) (es : List (Mark × Shown)) : List Shown :=
  es.filterMap fun e => if e.1 = mark then some e.2 else none

/-- Some steps, the last of them less the row behind it. -/
def closed : List Shown → List Shown
  | [] => []
  | [s] => [⟨s.title, s.details.dropLast⟩]
  | s :: ss => s :: closed ss

/-- What a report shows. -/
def read (report : Text) : Partition Shown :=
  let es := ((report.splitOn '\n').foldr place ([], [])).2
  ⟨closed (shownAs .done es), shownAs .failed es, closed (shownAs .todo es)⟩

-- ===================================================== one row at a time

/-- A marker takes no more room than it is given. -/
theorem drop_heading (mark : Mark) (t s : Text) :
    (atColumn t stepColumn mark.marker ++ s).drop stepColumn = t ++ s := by
  have hm := mark.length_marker_lt
  rw [atColumn_of_lt hm, List.append_assoc]
  refine List.drop_left' ?_
  rw [List.length_append, List.length_replicate]
  omega

/-- The marker in front tells the mark. -/
theorem markOf_heading (mark : Mark) (t s : Text) :
    markOf (atColumn t stepColumn mark.marker ++ s) = mark := by
  rw [atColumn_of_lt mark.length_marker_lt]
  cases mark <;> rfl

/-- A title behind its position is a header, and the title its rest. -/
theorem afterNumeral?_numbered (position : Nat) (title : Text) :
    afterNumeral? (numbered position title) = some title := by
  refine afterNumeral?_eq_some_iff.2 ⟨Nat.toDigits 10 position, ' ', rfl, ?_, rfl⟩
  refine ⟨Nat.toDigits_ne_nil, fun c hc => ?_⟩
  exact Nat.isDigit_of_mem_toDigits (by decide) (by decide) hc

/-- A heading is read as its mark and its title; its number is lost. -/
theorem heading?_heading (width : Nat) (mark : Mark) (position : Nat) (title : Text) :
    heading? ((Row.heading mark position title).text width) = some (mark, title) := by
  unfold heading?
  simp only [Row.text, markOf_heading, drop_heading, List.length_append,
    Nat.add_sub_cancel]
  rw [List.take_left' rfl, afterNumeral?_numbered, Option.map_some]

/-- A heading opens with a marker or a blank, never with a dash. -/
theorem head?_heading_ne (width : Nat) (mark : Mark) (position : Nat) (title : Text) :
    ((Row.heading mark position title).text width).head? ≠ some '-' := by
  rw [Row.text, atColumn_of_lt mark.length_marker_lt]
  cases mark <;> simp [Mark.marker, stepColumn]

/-- A body line is empty, or stands behind blanks alone. -/
theorem text_detail (width : Nat) (l : Text) :
    (Row.detail l).text width = [] ∧ l.emptied = []
      ∨ (Row.detail l).text width = List.replicate stepColumn ' ' ++ l ∧ l.emptied = l := by
  unfold Text.emptied
  split
  · next h => exact Or.inl ⟨Row.text_detail_of_allBlank width h, rfl⟩
  · next h =>
    exact Or.inr ⟨Row.text_detail_of_not_allBlank width (Bool.eq_false_iff.2 h), rfl⟩

/-- Less the column, a body line is as the step has it, up to blank lines. -/
theorem drop_detail (width : Nat) (l : Text) :
    ((Row.detail l).text width).drop stepColumn = l.emptied := by
  rcases text_detail width l with ⟨ht, he⟩ | ⟨ht, he⟩
  · rw [ht, he, List.drop_nil]
  · rw [ht, he]
    exact List.drop_left' List.length_replicate

/-- A line of a body is no heading: it has no mark, and no header behind
the blanks. -/
theorem heading?_detail (width : Nat) {l : Text} (hl : opensStep l = false) :
    heading? ((Row.detail l).text width) = none := by
  -- no mark stands in the column, whether the line shows something or not
  have hmark : markOf ((Row.detail l).text width) = .todo := by
    rcases text_detail width l with ⟨ht, -⟩ | ⟨ht, -⟩
    · rw [ht]
      rfl
    · rw [ht]
      rfl
  have hnone : afterNumeral? l.emptied = none := by
    rcases text_detail width l with ⟨-, he⟩ | ⟨-, he⟩
    · rw [he]
      rfl
    · rw [he]
      exact Option.not_isSome_iff_eq_none.1 (Bool.eq_false_iff.1 hl)
  have hs : Mark.todo.suffix.length = 0 := rfl
  unfold heading?
  simp only [hmark, drop_detail]
  rw [hs, Nat.sub_zero, List.take_length, hnone, Option.map_none]

/-- A body line is never flush left. -/
theorem head?_detail_ne (width : Nat) (l : Text) :
    ((Row.detail l).text width).head? ≠ some '-' := by
  rcases text_detail width l with ⟨ht, -⟩ | ⟨ht, -⟩
  · rw [ht]
    exact nofun
  · rw [ht]
    simp [stepColumn, List.replicate_succ]

-- The four kinds of row, as the reader takes them.

theorem place_gap (width : Nat) (r : List Text × List (Mark × Shown)) :
    place (Row.gap.text width) r = ([] :: r.1, r.2) := rfl

theorem place_edge {width : Nat} (hw : 0 < width) (r : List Text × List (Mark × Shown)) :
    place (Row.edge.text width) r = ([], r.2) := by
  obtain ⟨n, rfl⟩ := Nat.exists_eq_succ_of_ne_zero (Nat.ne_of_gt hw)
  rfl

theorem place_heading (width : Nat) (mark : Mark) (position : Nat) (title : Text)
    (r : List Text × List (Mark × Shown)) :
    place ((Row.heading mark position title).text width) r
      = ([], (mark, ⟨title, r.1⟩) :: r.2) := by
  rw [place, if_neg (head?_heading_ne width mark position title), heading?_heading]

theorem place_detail (width : Nat) {l : Text} (hl : opensStep l = false)
    (r : List Text × List (Mark × Shown)) :
    place ((Row.detail l).text width) r = (l.emptied :: r.1, r.2) := by
  rw [place, if_neg (head?_detail_ne width l), heading?_detail width hl, drop_detail]

-- ========================================================= whole groups

/-- One more step in front of the rows gathered and the steps read. -/
def put (mark : Mark) (s : Step) (r : List Text × List (Mark × Shown)) :
    List Text × List (Mark × Shown) :=
  ([], (mark, ⟨s.title, s.shown.details ++ r.1⟩) :: r.2)

/-- Some rows, read from the right. -/
def readRows (width : Nat) (rows : List Row) (r : List Text × List (Mark × Shown)) :
    List Text × List (Mark × Shown) :=
  rows.foldr (fun row => place (row.text width)) r

theorem readRows_nil (width : Nat) (r : List Text × List (Mark × Shown)) :
    readRows width [] r = r := rfl

theorem readRows_cons (width : Nat) (row : Row) (rows : List Row)
    (r : List Text × List (Mark × Shown)) :
    readRows width (row :: rows) r = place (row.text width) (readRows width rows r) := rfl

theorem readRows_append (width : Nat) (rows rows' : List Row)
    (r : List Text × List (Mark × Shown)) :
    readRows width (rows ++ rows') r = readRows width rows (readRows width rows' r) :=
  List.foldr_append

/-- The rows of a step are read as that step, with what is gathered
behind them at the end of its body. -/
theorem readRows_step (width : Nat) (mark : Mark) (position : Nat) {s : Step}
    (hs : s.WellFormed) (r : List Text × List (Mark × Shown)) :
    readRows width (s.rows mark position) r = put mark s r := by
  have hbody : ∀ body : List Text, (∀ l ∈ body, opensStep l = false) →
      readRows width (body.map .detail) r = (body.map Text.emptied ++ r.1, r.2) := by
    intro body
    induction body with
    | nil => intro _; rfl
    | cons l body ih =>
        intro h
        have ih' := ih fun m hm => h m (List.mem_cons_of_mem l hm)
        rw [List.map_cons, readRows_cons, ih', place_detail width (h l List.mem_cons_self)]
        rfl
  rw [Step.rows, readRows_cons, hbody s.body hs.body_continues, place_heading]
  rfl

/-- Neighbouring steps are read one by one, each with its own body. -/
theorem readRows_stepRows (width : Nat) (mark : Mark) {steps : List Step}
    (h : ∀ s ∈ steps, s.WellFormed) (position : Nat)
    (r : List Text × List (Mark × Shown)) :
    readRows width (stepRows mark position steps) r = steps.foldr (put mark) r := by
  induction steps generalizing position with
  | nil => rfl
  | cons s steps ih =>
      rw [stepRows_cons, readRows_append, ih fun t ht => h t (List.mem_cons_of_mem s ht),
        readRows_step width mark position (h s List.mem_cons_self), List.foldr_cons]

/-- A step in a box in front of the rows gathered and the steps read. -/
def box (s : Step) (r : List Text × List (Mark × Shown)) :
    List Text × List (Mark × Shown) :=
  ([[]], (.failed, s.shown) :: r.2)

/-- Whatever is gathered below a box ends at its lower edge, and above
its upper edge stands one empty row. -/
theorem readRows_boxRows {width : Nat} (hw : 0 < width) {p : Partition Step}
    (h : ∀ s ∈ p.failed, s.WellFormed) (r : List Text × List (Mark × Shown)) :
    readRows width p.boxRows r = p.failed.foldr box r := by
  unfold Partition.boxRows
  generalize p.done.length + 1 = position
  generalize p.failed = failed at h
  induction failed generalizing position with
  | nil => rfl
  | cons s failed ih =>
      have hrest := ih (position + 1) fun t ht => h t (List.mem_cons_of_mem s ht)
      rw [List.zipIdx_cons, List.flatMap_cons, readRows_append, hrest, List.foldr_cons,
        readRows_append, readRows_append]
      simp only [readRows_cons, readRows_nil]
      rw [place_gap, place_edge hw, readRows_step width .failed _ (h s List.mem_cons_self),
        place_edge hw, place_gap, put, List.append_nil, box, Step.shown]

/-- The row that parts done from not reached, when one is needed. -/
theorem readRows_parting (width : Nat) (p : Partition Step)
    (r : List Text × List (Mark × Shown)) :
    readRows width p.parting r
      = if p.failed.isEmpty && !p.done.isEmpty && !p.todo.isEmpty
        then ([] :: r.1, r.2) else r := by
  unfold Partition.parting
  split <;> rfl

-- ======================================================= the marks apart

theorem shownAs_cons_self (mark : Mark) (s : Shown) (es : List (Mark × Shown)) :
    shownAs mark ((mark, s) :: es) = s :: shownAs mark es := by
  simp [shownAs]

theorem shownAs_cons_of_ne {mark m : Mark} (hne : mark ≠ m) (s : Shown)
    (es : List (Mark × Shown)) : shownAs m ((mark, s) :: es) = shownAs m es := by
  simp [shownAs, hne]

/-- Steps of one mark leave those of the others as they are. -/
theorem shownAs_foldr_put_of_ne {mark m : Mark} (hne : mark ≠ m) (steps : List Step)
    (r : List Text × List (Mark × Shown)) :
    shownAs m (steps.foldr (put mark) r).2 = shownAs m r.2 := by
  induction steps with
  | nil => rfl
  | cons s steps ih =>
      rw [List.foldr_cons, put, shownAs_cons_of_ne hne, ih]

/-- A group of one mark with one empty row behind it, in front of steps
of other marks, gives back its steps. -/
theorem closed_shownAs_foldr_put {mark : Mark} {r : List Text × List (Mark × Shown)}
    (hr : shownAs mark r.2 = []) {steps : List Step} (hgap : steps ≠ [] → r.1 = [[]]) :
    closed (shownAs mark (steps.foldr (put mark) r).2) = steps.map Step.shown := by
  induction steps with
  | nil =>
      rw [List.foldr_nil, hr]
      rfl
  | cons s steps ih =>
      rw [List.foldr_cons, put, shownAs_cons_self, List.map_cons]
      cases steps with
      | nil =>
          -- The last step: the row behind it is the one that `closed` takes off.
          rw [List.foldr_nil, hr, hgap (List.cons_ne_nil s []), closed,
            List.dropLast_concat]
          rfl
      | cons t steps =>
          have hrest := ih fun _ => hgap (List.cons_ne_nil s (t :: steps))
          rw [List.foldr_cons, put, shownAs_cons_self] at hrest ⊢
          rw [closed, hrest, List.append_nil]
          · rfl
          · exact List.cons_ne_nil _ _

/-- The steps in boxes are read as the failed ones. -/
theorem shownAs_foldr_box (failed : List Step) (r : List Text × List (Mark × Shown)) :
    shownAs .failed (failed.foldr box r).2
      = failed.map Step.shown ++ shownAs .failed r.2 := by
  induction failed with
  | nil => rfl
  | cons s failed ih =>
      rw [List.foldr_cons, box, shownAs_cons_self, ih, List.map_cons, List.cons_append]

/-- The boxes leave the steps of the other marks as they are. -/
theorem shownAs_foldr_box_of_ne {m : Mark} (hne : .failed ≠ m) (failed : List Step)
    (r : List Text × List (Mark × Shown)) :
    shownAs m (failed.foldr box r).2 = shownAs m r.2 := by
  induction failed with
  | nil => rfl
  | cons s failed ih =>
      rw [List.foldr_cons, box, shownAs_cons_of_ne hne, ih]

-- ============================================================ the report

/-- Behind the last done step stands one empty row, wherever it comes
from: above the box, as the parting, or at the end of the report. -/
theorem gathered_behind_done (width : Nat) {p : Partition Step} (hne : p.done ≠ []) :
    (p.failed.foldr box (readRows width p.parting
      (p.todo.foldr (put .todo) ([[]], [])))).1 = [[]] := by
  cases hf : p.failed with
  | cons s failed => rfl
  | nil =>
      have hd : p.done.isEmpty = false := List.isEmpty_eq_false_iff.2 hne
      rw [List.foldr_nil, readRows_parting, hf, hd]
      cases ht : p.todo with
      | nil => rfl
      | cons s todo => rfl

/-- The rows of a partition, read from the right, give back its steps. -/
theorem readRows_rows {width : Nat} (hw : 0 < width) {p : Partition Step}
    (h : ∀ s ∈ p.all, s.WellFormed) {es : List (Mark × Shown)}
    (hes : (readRows width p.rows ([], [])).2 = es) :
    closed (shownAs .done es) = p.done.map Step.shown
      ∧ shownAs .failed es = p.failed.map Step.shown
      ∧ closed (shownAs .todo es) = p.todo.map Step.shown := by
  have hdone : ∀ s ∈ p.done, s.WellFormed := fun s hs =>
    h s (List.mem_append_left _ (List.mem_append_left _ hs))
  have hfailed : ∀ s ∈ p.failed, s.WellFormed := fun s hs =>
    h s (List.mem_append_left _ (List.mem_append_right _ hs))
  have htodo : ∀ s ∈ p.todo, s.WellFormed := fun s hs =>
    h s (List.mem_append_right _ hs)
  have hgap : p.done ≠ [] → _ := gathered_behind_done width
  unfold Partition.rows at hes
  rw [readRows_append, readRows_append, readRows_append, readRows_append,
    readRows_cons, readRows_cons, readRows_nil, place_gap, place_gap,
    readRows_stepRows width _ htodo, readRows_boxRows hw hfailed,
    readRows_stepRows width _ hdone] at hes
  obtain ⟨t, ht⟩ : ∃ t, p.todo.foldr (put .todo) ([[]], []) = t := ⟨_, rfl⟩
  obtain ⟨b, hb⟩ : ∃ b, readRows width p.parting t = b := ⟨_, rfl⟩
  rw [ht, hb] at hes hgap
  subst hes
  have hbt : b.2 = t.2 := by
    rw [← hb, readRows_parting]
    split <;> rfl
  have hother : ∀ m, .todo ≠ m → shownAs m b.2 = [] := by
    intro m hm
    rw [hbt, ← ht, shownAs_foldr_put_of_ne hm]
    rfl
  refine ⟨closed_shownAs_foldr_put ?_ hgap, ?_, ?_⟩
  · rw [shownAs_foldr_box_of_ne (by decide), hother .done (by decide)]
  · rw [shownAs_foldr_put_of_ne (by decide), shownAs_foldr_box, hother .failed (by decide),
      List.append_nil]
  · rw [shownAs_foldr_put_of_ne (by decide), shownAs_foldr_box_of_ne (by decide), hbt, ← ht]
    exact closed_shownAs_foldr_put rfl fun _ => rfl

/-- The text of a partition is read back as the partition, up to what a
report does not show. -/
theorem read_rows {width : Nat} (hw : 0 < width) {p : Partition Step}
    (h : ∀ s ∈ p.all, s.Legible) :
    read (Text.joinLines (p.rows.map (Row.text width))) = p.map Step.shown := by
  have hwf : ∀ s ∈ p.all, s.WellFormed := fun s hs => (h s hs).toWellFormed
  have hes : readRows width p.rows ([], [])
      = (p.rows.map (Row.text width)).foldr place ([], []) := by
    rw [readRows, List.foldr_map]
  obtain ⟨hd, hf, ht⟩ := readRows_rows hw hwf rfl
  rw [hes] at hd hf ht
  unfold read
  rw [splitOn_joinLines_rows width fun s hs => (h s hs).not_mem_lines]
  simp only [hd, hf, ht]
  rfl

/-- From the text of a report one reads what it shows. -/
theorem read_report {ref : List Step} (h : ∀ s ∈ ref, s.Legible) (rec : List Step)
    (status : Status) :
    read (report ref rec status) = (Partition.ofRun ref rec status).map Step.shown := by
  refine read_rows (boxWidth_pos ref) fun s hs => h s ?_
  rw [Partition.all_ofRun] at hs
  exact hs

/-- Reports are lossless. Whatever was recorded and however the two runs
ended, if their reports are the same text then as many steps are shown
done, failed and not reached; and one by one these have the same title,
and as many body lines, which are the same or both blank. -/
theorem shown_eq_of_report_eq {ref ref' : List Step} (h : ∀ s ∈ ref, s.Legible)
    (h' : ∀ s ∈ ref', s.Legible) {rec rec' : List Step} {status status' : Status}
    (heq : report ref rec status = report ref' rec' status') :
    (Partition.ofRun ref rec status).map Step.shown
      = (Partition.ofRun ref' rec' status').map Step.shown := by
  calc (Partition.ofRun ref rec status).map Step.shown
      = read (report ref rec status) := (read_report h rec status).symm
    _ = read (report ref' rec' status') := by rw [heq]
    _ = (Partition.ofRun ref' rec' status').map Step.shown := read_report h' rec' status'

/-- Two sequences that differ in numerals and in what their blank lines
hold, with one report. -/
theorem shown_eq_of_report_eq_renumbered :
    let ref := Step.readAll "1. Open\n   * wait\n \n2. Close".toList
    let ref' := Step.readAll "7.  Open\n   * wait\n\t\n7. Close".toList
    ref ≠ ref' ∧ (∀ s ∈ ref, s.Legible) ∧ (∀ s ∈ ref', s.Legible)
      ∧ report ref (ref.take 1) .fail = report ref' (ref'.take 1) .fail
      ∧ (Partition.ofRun ref (ref.take 1) .fail).map Step.shown
        = (Partition.ofRun ref' (ref'.take 1) .fail).map Step.shown := by
  intro ref ref'
  have h : ∀ s ∈ ref, s.Legible := fun s => Step.legible_of_mem_readAll
  have h' : ∀ s ∈ ref', s.Legible := fun s => Step.legible_of_mem_readAll
  have heq : report ref (ref.take 1) .fail = report ref' (ref'.take 1) .fail := by
    decide +kernel
  exact ⟨by decide +kernel, h, h', heq, shown_eq_of_report_eq h h' heq⟩

end Reading

end Runsheet
