/-
Reports. A report is first a list of rows, each of which knows what it
shows: an empty row, an edge of the failure box, the heading of a step
with its mark and position, or a line of a step's body. Only then is
it text. Whoever wants to know which line of the text shows what
reads it off the rows.

# The rows

Steps are numbered from 1 in the order of the partition, whatever
numerals the reference used. Done steps come first; the failed step
stands in a box, an edge and an empty row on either side; steps not
reached come last. Without a failed step an empty row parts done from
not reached, if there are both. One empty row opens a report and one
closes it.

# The text

Headings and body lines start at column 4, and the mark of a heading
stands at column 0. A failed heading carries its mark at the end as
well. Blank body lines are shown empty.

The edges of the box are as long as the longest numbered heading or
body line of the reference, and two more for the mark at the end. They
are measured on the whole reference, so the run does not move them.
-/
import Runsheet.Progress
import Runsheet.Report.Layout
import Runsheet.Step

namespace Runsheet

-- ================================================================ marks

/-- What became of a step, as its heading shows it. -/
inductive Mark where
  | done
  | failed
  | todo
  deriving DecidableEq, Repr

namespace Mark

/-- What stands at column 0 of a heading. -/
def marker : Mark → Text
  | .done => ['\u2713']
  | .failed => ['\u2715']
  | .todo => []

/-- What stands at the end of a heading. -/
def suffix : Mark → Text
  | .failed => ' ' :: Mark.failed.marker
  | _ => []

end Mark

/-- A title behind its position. -/
def numbered (position : Nat) (title : Text) : Text :=
  Nat.toDigits 10 position ++ '.' :: ' ' :: title

-- ================================================================= rows

/-- One line of a report, by what it shows. -/
inductive Row where
  | gap
  | edge
  | heading (mark : Mark) (position : Nat) (title : Text)
  | detail (line : Text)
  deriving DecidableEq, Repr

/-- The column at which steps are shown. -/
def stepColumn : Nat := 4

/-- The text of a row in a report whose box is `width` wide. -/
def Row.text (width : Nat) : Row → Text
  | .gap => []
  | .edge => List.replicate width '-'
  | .heading mark position title =>
    atColumn (numbered position title) stepColumn mark.marker ++ mark.suffix
  | .detail line => if Text.allBlank line then [] else atColumn line stepColumn []

/-- The rows of one step. -/
def Step.rows (mark : Mark) (position : Nat) (s : Step) : List Row :=
  .heading mark position s.title :: s.body.map .detail

/-- The rows of neighbouring steps of one mark, numbered from
`position`. -/
def stepRows (mark : Mark) (position : Nat) (steps : List Step) : List Row :=
  (steps.zipIdx position).flatMap fun p => p.1.rows mark p.2

namespace Partition

/-- The rows of the failure box; none without a failed step. -/
def boxRows (p : Partition Step) : List Row :=
  (p.failed.zipIdx (p.done.length + 1)).flatMap fun f =>
    [.gap, .edge] ++ f.1.rows .failed f.2 ++ [.edge, .gap]

/-- The empty row between done and not reached, where nothing failed. -/
def parting (p : Partition Step) : List Row :=
  if p.failed.isEmpty && !p.done.isEmpty && !p.todo.isEmpty then [.gap] else []

/-- The rows of a report. -/
def rows (p : Partition Step) : List Row :=
  .gap :: stepRows .done 1 p.done ++ p.boxRows ++ p.parting
    ++ stepRows .todo (p.done.length + p.failed.length + 1) p.todo ++ [.gap]

end Partition

-- ================================================================= text

/-- The width of the failure box. -/
def boxWidth (ref : List Step) : Nat :=
  longest ((ref.zipIdx 1).flatMap fun p => numbered p.2 p.1.title :: p.1.body)
    + Mark.failed.suffix.length

/-- The report on a run: its reference, its record and how it ended. -/
def report (ref rec : List Step) (status : Status) : Text :=
  Text.joinLines ((Partition.ofRun ref rec status).rows.map (Row.text (boxWidth ref)))

/-- One line that says how a test ended and how many of its steps are
done. -/
def Outcome.summary {α : Type _} (o : Outcome) (p : Partition α) : Text :=
  o.name ++ ": ".toList ++ o.status.capitals ++ " (".toList
    ++ Nat.toDigits 10 p.done.length ++ '/' :: Nat.toDigits 10 p.size
    ++ " steps done)".toList

end Runsheet
