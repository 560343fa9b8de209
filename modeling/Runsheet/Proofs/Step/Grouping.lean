/-
Grouping. The steps of a text are the one way to group its lines: every
step begins with a header and holds no other, and the steps, one behind
the other, are the lines from the first header on, without the blank
ones at the end.

# Line by line

Steps are read here a second time, from the left and one line at a time.
Between two lines the reader keeps the steps it has finished and the one
that is still open (`Reader`). A header finishes the open step and opens
the next; any other line goes to the open step, and nowhere if there is
none. Behind the last line the open step gives up the blank lines at its
end, but never its header, and no other step gives up any.

# The argument

`Reader.Follows` ties the reader to the lines it has taken: the steps
begun so far are well formed, and their lines are the ones from the
first header on. One line more keeps that (`Reader.Follows.push`), and
so a whole text does (`Reader.follows_foldl_push`). A header is not
blank, so what the open step gives up is what all lines together give up
(`lines_trimmed`).

Lines are put into steps in one way at most, because the pass of
`Step.group` finds the steps again (`Groups.unique`). So both readings
agree without being compared step by step.
-/
import Mathlib.Data.List.Induction
import Mathlib.Data.List.TakeWhile
import Runsheet.Proofs.Step.Lines

namespace Runsheet.Step

variable {ls : List Text} {steps : List Step}

-- ========================================================== what is grouped

/-- The lines from the first header on. -/
def fromHeader (ls : List Text) : List Text := ls.dropWhile (! opensStep ·)

/-- The lines from the first header on, without the blank ones at the
end. -/
def ownLines (ls : List Text) : List Text := dropEndWhile Text.allBlank (fromHeader ls)

/-- Steps that group some lines: well formed, and one behind the other
the lines that are to be grouped. -/
structure Groups (ls : List Text) (steps : List Step) : Prop where
  wellFormed : ∀ s ∈ steps, s.WellFormed
  lines_eq : steps.flatMap Step.lines = ownLines ls

/-- Nothing is left exactly if there is no header. -/
theorem fromHeader_eq_nil_iff : fromHeader ls = [] ↔ ∀ l ∈ ls, opensStep l = false := by
  rw [fromHeader, List.dropWhile_eq_nil_iff]
  exact forall₂_congr fun l _ => by rw [Bool.not_eq_true']

/-- Lines in front of the first header are passed over. -/
theorem fromHeader_append_of_not_opens {pre : List Text}
    (hpre : ∀ l ∈ pre, opensStep l = false) (ls : List Text) :
    fromHeader (pre ++ ls) = fromHeader ls :=
  List.dropWhile_append_of_pos fun l hl => by rw [hpre l hl]; rfl

theorem fromHeader_cons_of_opens {line : Text} (h : opensStep line = true) (ls : List Text) :
    fromHeader (line :: ls) = line :: ls :=
  List.dropWhile_cons_of_neg (by rw [h]; exact Bool.false_ne_true)

/-- Behind a header every line counts. -/
theorem fromHeader_append_of_ne_nil (h : fromHeader ls ≠ []) (ls' : List Text) :
    fromHeader (ls ++ ls') = fromHeader ls ++ ls' := by
  have hne : ¬ (ls.dropWhile (! opensStep ·)).isEmpty = true := mt List.isEmpty_iff.1 h
  rw [fromHeader, List.dropWhile_append, if_neg hne, fromHeader]

/-- Lines are grouped in one way at most. -/
theorem Groups.unique {steps' : List Step} (h : Groups ls steps) (h' : Groups ls steps') :
    steps = steps' := by
  have hgroup := group_flatMap_lines h.wellFormed
  rw [h.lines_eq, ← h'.lines_eq, group_flatMap_lines h'.wellFormed] at hgroup
  exact (Prod.mk.inj hgroup).2.symm

/-- Where nothing opens a step there is nothing to group. -/
theorem ownLines_of_not_opens (h : ∀ l ∈ ls, opensStep l = false) : ownLines ls = [] := by
  rw [ownLines, fromHeader_eq_nil_iff.2 h]
  rfl

/-- Lines in front of the first header are not grouped, and neither are
blank ones at the end. -/
theorem ownLines_append {pre blanks : List Text} (hpre : ∀ l ∈ pre, opensStep l = false)
    (hblanks : ∀ l ∈ blanks, l.allBlank = true) (hsteps : ∀ s ∈ steps, s.WellFormed)
    (hsolid : EndsSolid steps) :
    ownLines (pre ++ steps.flatMap Step.lines ++ blanks) = steps.flatMap Step.lines := by
  rw [ownLines, List.append_assoc, fromHeader_append_of_not_opens hpre]
  cases steps with
  | nil =>
      exact ownLines_of_not_opens fun l hl => opensStep_eq_false_of_allBlank (hblanks l hl)
  | cons s steps =>
      have hs := (hsteps s List.mem_cons_self).header_opens
      have hall : fromHeader ((s :: steps).flatMap Step.lines ++ blanks)
          = (s :: steps).flatMap Step.lines ++ blanks := fromHeader_cons_of_opens hs _
      obtain ⟨l, hlast, hl⟩ := hsolid.exists_getLast? hsteps (List.cons_ne_nil s steps)
      rw [hall, dropEndWhile_append_of_pos hblanks, dropEndWhile_of_getLast? hlast hl]

/-- What the reader gives is a grouping of the lines. -/
theorem groups_readAll (t : Text) : Groups t.lines (readAll t) := by
  obtain ⟨pre, blanks, hlines, hpre, hblanks⟩ := exists_lines_eq t
  have hsteps : ∀ s ∈ readAll t, s.WellFormed := fun s hs => wellFormed_of_mem_readAll hs
  refine ⟨hsteps, ?_⟩
  rw [hlines]
  exact (ownLines_append (fun l hl => (hpre l hl).1) (fun l hl => (hblanks l hl).1) hsteps
    (endsSolid_readAll t)).symm

-- ============================================================ line by line

/-- What a reader has between two lines: the steps it has finished, and
the one that is still open, if one is. -/
structure Reader where
  finished : List Step
  opened : Option Step
  deriving DecidableEq, Repr

/-- A step with one more line. -/
def extend (s : Step) (line : Text) : Step := ⟨s.header, s.body ++ [line]⟩

/-- A step without the blank lines at its end. The header stays. -/
def trimmed (s : Step) : Step := ⟨s.header, dropEndWhile Text.allBlank s.body⟩

theorem lines_extend (s : Step) (line : Text) : (s.extend line).lines = s.lines ++ [line] := rfl

/-- A header is not blank, so a step gives up at its end what all lines
up to there give up. -/
theorem lines_trimmed {s : Step} (hs : s.WellFormed) (ls : List Text) :
    ls ++ s.trimmed.lines = dropEndWhile Text.allBlank (ls ++ s.lines) :=
  (dropEndWhile_append_cons_of_neg (allBlank_eq_false_of_opensStep hs.header_opens)).symm

/-- A step stays well formed under lines that are no headers. -/
theorem WellFormed.extend {s : Step} (hs : s.WellFormed) {line : Text}
    (h : opensStep line = false) : (s.extend line).WellFormed where
  header_opens := hs.header_opens
  body_continues :=
    List.forall_mem_append.2 ⟨hs.body_continues, List.forall_mem_singleton.2 h⟩

theorem WellFormed.trimmed {s : Step} (hs : s.WellFormed) : s.trimmed.WellFormed where
  header_opens := hs.header_opens
  body_continues := fun l hl =>
    hs.body_continues l ((isPrefix_dropEndWhile _ _).subset hl)

namespace Reader

/-- The reader before the first line. -/
def start : Reader := ⟨[], none⟩

/-- All steps begun, the open one last. -/
def begun (r : Reader) : List Step := r.finished ++ r.opened.toList

/-- Takes one more line. -/
def push (r : Reader) (line : Text) : Reader :=
  if opensStep line then ⟨r.begun, some ⟨line, []⟩⟩
  else ⟨r.finished, r.opened.map (·.extend line)⟩

/-- The steps, when there is no further line. -/
def close (r : Reader) : List Step := r.finished ++ (r.opened.map trimmed).toList

/-- The steps of some lines, read one line after the other. -/
def readLines (ls : List Text) : List Step := (ls.foldl push start).close

/-- What holds between two lines: the steps begun are well formed and
hold the lines taken, from the first header on. With no step open none
is finished. -/
structure Follows (ls : List Text) (r : Reader) : Prop where
  wellFormed : ∀ s ∈ r.begun, s.WellFormed
  lines_eq : r.begun.flatMap Step.lines = fromHeader ls
  finished_eq_nil : r.opened = none → r.finished = []

theorem follows_start : Follows [] start where
  wellFormed := List.forall_mem_nil _
  lines_eq := rfl
  finished_eq_nil := fun _ => rfl

variable {r : Reader}

/-- As long as no step is open, no header has come. -/
theorem Follows.begun_eq_nil (h : Follows ls r) (hopened : r.opened = none) : r.begun = [] := by
  rw [begun, h.finished_eq_nil hopened, hopened]
  rfl

/-- With a step open, the steps so far are well formed and make up all lines
from the first header on. -/
theorem Follows.of_opened {s : Step} (h : Follows ls r) (hopened : r.opened = some s) :
    (∀ s' ∈ r.finished, s'.WellFormed) ∧ s.WellFormed
      ∧ r.finished.flatMap Step.lines ++ s.lines = fromHeader ls := by
  have hbegun : r.begun = r.finished ++ [s] := by rw [begun, hopened]; rfl
  have hwf := h.wellFormed
  have hlines := h.lines_eq
  rw [hbegun, List.forall_mem_append, List.forall_mem_singleton] at hwf
  rw [hbegun, List.flatMap_append, List.flatMap_singleton] at hlines
  exact ⟨hwf.1, hwf.2, hlines⟩

/-- A header finishes the open step, if one is, and opens the next. -/
theorem Follows.push_of_opens {line : Text} (h : Follows ls r) (hline : opensStep line = true) :
    Follows (ls ++ [line]) (r.push line) := by
  have hpush : r.push line = ⟨r.begun, some ⟨line, []⟩⟩ := if_pos hline
  have hfrom : fromHeader (ls ++ [line]) = fromHeader ls ++ [line] := by
    by_cases hnil : fromHeader ls = []
    · rw [fromHeader_append_of_not_opens (fromHeader_eq_nil_iff.1 hnil), hnil,
        fromHeader_cons_of_opens hline, List.nil_append]
    · exact fromHeader_append_of_ne_nil hnil [line]
  have hstep : WellFormed ⟨line, []⟩ := ⟨hline, List.forall_mem_nil _⟩
  rw [hpush]
  refine ⟨?_, ?_, nofun⟩
  · exact List.forall_mem_append.2 ⟨h.wellFormed, List.forall_mem_singleton.2 hstep⟩
  · rw [hfrom, ← h.lines_eq]
    exact List.flatMap_append

/-- A line that is no header goes to the open step, and nowhere if none is
open. -/
theorem Follows.push_of_not_opens {line : Text} (h : Follows ls r)
    (hline : opensStep line = false) : Follows (ls ++ [line]) (r.push line) := by
  have hpush : r.push line = ⟨r.finished, r.opened.map (·.extend line)⟩ :=
    if_neg (by rw [hline]; exact Bool.false_ne_true)
  rw [hpush]
  -- without an open step the line is passed over, else it belongs to that step
  cases hopened : r.opened with
  | none =>
      have hlines := h.lines_eq
      rw [h.begun_eq_nil hopened, List.flatMap_nil] at hlines
      have hfrom : fromHeader (ls ++ [line]) = [] := by
        rw [fromHeader_append_of_not_opens (fromHeader_eq_nil_iff.1 hlines.symm)]
        exact fromHeader_eq_nil_iff.2 (List.forall_mem_singleton.2 hline)
      rw [h.finished_eq_nil hopened]
      exact ⟨List.forall_mem_nil _, hfrom.symm, fun _ => rfl⟩
  | some s =>
      obtain ⟨hfinished, hs, hlines⟩ := h.of_opened hopened
      have hfrom : fromHeader (ls ++ [line]) = fromHeader ls ++ [line] := by
        refine fromHeader_append_of_ne_nil (fun hnil => ?_) [line]
        rw [hnil, List.append_eq_nil_iff] at hlines
        exact List.cons_ne_nil _ _ hlines.2
      refine ⟨?_, ?_, nofun⟩
      · exact List.forall_mem_append.2
          ⟨hfinished, List.forall_mem_singleton.2 (hs.extend hline)⟩
      · show (r.finished ++ [s.extend line]).flatMap Step.lines = _
        rw [hfrom, ← hlines, List.flatMap_append, List.flatMap_singleton, lines_extend,
          List.append_assoc]

/-- The reader follows one more line. This is the step of the run. -/
theorem Follows.push (h : Follows ls r) (line : Text) :
    Follows (ls ++ [line]) (r.push line) := by
  cases hline : opensStep line with
  | true => exact h.push_of_opens hline
  | false => exact h.push_of_not_opens hline

/-- The reader follows any number of lines. -/
theorem follows_foldl_push (ls : List Text) : Follows ls (ls.foldl push start) := by
  -- over the lines taken: the induction adds the last of them
  induction ls using List.reverseRecOn with
  | nil => exact follows_start
  | append_singleton ls line ih =>
      rw [List.foldl_append]
      exact ih.push line

/-- What is closed groups the lines that were taken. -/
theorem Follows.groups (h : Follows ls r) : Groups ls r.close := by
  unfold close
  cases hopened : r.opened with
  | none =>
      have hlines := h.lines_eq
      rw [h.begun_eq_nil hopened] at hlines
      rw [h.finished_eq_nil hopened]
      refine ⟨List.forall_mem_nil _, ?_⟩
      rw [ownLines, ← hlines]
      rfl
  | some s =>
      obtain ⟨hfinished, hs, hlines⟩ := h.of_opened hopened
      refine ⟨?_, ?_⟩
      · exact List.forall_mem_append.2 ⟨hfinished, List.forall_mem_singleton.2 hs.trimmed⟩
      · show (r.finished ++ [s.trimmed]).flatMap Step.lines = _
        rw [ownLines, ← hlines, List.flatMap_append, List.flatMap_singleton, lines_trimmed hs]

end Reader

-- ======================================================== the one grouping

/-- Reading groups the lines of a text and loses none: without a header
there is no step, and otherwise the steps are the only ones that begin
with a header each, hold no other, and are, one behind the other, the
lines from the first header on without the blank ones at the end. Read
line by line they are the same steps. -/
theorem readAll_groups_lines (t : Text) :
    ((∀ l ∈ t.lines, opensStep l = false) → readAll t = [])
      ∧ (∀ steps, Groups t.lines steps ↔ steps = readAll t)
      ∧ Reader.readLines t.lines = readAll t := by
  have hall := groups_readAll t
  refine ⟨fun h => ?_, fun steps => ⟨fun h => h.unique hall, fun h => ?_⟩, ?_⟩
  · have hlines := hall.lines_eq
    rw [ownLines_of_not_opens h] at hlines
    exact flatMap_lines_eq_nil_iff.1 hlines
  · rw [h]
    exact hall
  · exact (Reader.follows_foldl_push t.lines).groups.unique hall

/-- A bare number is no header, and a line of one no-break space in the
middle of a step stays, while a byte order mark at the end goes. -/
theorem readAll_groups_lines_blanks :
    (∀ l ∈ Text.lines "1.Open\n2".toList, opensStep l = false)
      ∧ readAll "1.Open\n2".toList = []
      ∧ Groups (Text.lines "2\r\n1.\u00a0Open\r\n\u00a0\n * wait\n\ufeff\n".toList)
          [⟨"1.\u00a0Open".toList, ["\u00a0".toList, " * wait".toList]⟩] := by
  have hnone : ∀ l ∈ Text.lines "1.Open\n2".toList, opensStep l = false := by decide +kernel
  exact ⟨hnone, (readAll_groups_lines _).1 hnone,
    ((readAll_groups_lines _).2.1 _).2 (by decide +kernel)⟩

end Runsheet.Step
