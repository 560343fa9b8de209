/-
Console. Each kind of notice has its label, its colour and its stream.
A report has no label; its lines are coloured by how they look: a line
that opens with the mark of a done or a failed step, and a line of
dashes alone.

Colour is either on for everything or off for everything, and off
means that nothing at all is added.
-/
import Runsheet.Notice
import Runsheet.Report.Basic
import Runsheet.Style

namespace Runsheet

/-- What goes to the two output streams. -/
structure Printed where
  stdout : Text
  stderr : Text
  deriving DecidableEq, Repr

namespace Printed

/-- No output. -/
def empty : Printed := ⟨[], []⟩

/-- One output and another behind it, stream by stream. -/
def append (p q : Printed) : Printed := ⟨p.stdout ++ q.stdout, p.stderr ++ q.stderr⟩

instance : Append Printed := ⟨append⟩

/-- A text and a line break on standard output. -/
def outLine (t : Text) : Printed := ⟨t ++ ['\n'], []⟩

/-- A text and a line break on standard error. -/
def errLine (t : Text) : Printed := ⟨[], t ++ ['\n']⟩

/-- Outputs one behind the other. -/
def concat (ps : List Printed) : Printed := ps.foldr (· ++ ·) empty

end Printed

namespace Console

/-- A text in some styles if there is colour, and as it is if not. -/
def paint (colour : Bool) (styles : List Style) (t : Text) : Text :=
  if colour then Style.paint styles t else t

/-- The styles of a report line, by how it looks. -/
def lineStyles (line : Text) : List Style :=
  if Mark.done.marker <+: line then [.green]
  else if Mark.failed.marker <+: line then [.red, .bold]
  else if !line.isEmpty && line.all (· = '-') then [.red]
  else []

/-- A report line in its styles; a line without a style stays as it
is. -/
def paintLine (colour : Bool) (line : Text) : Text :=
  if (lineStyles line).isEmpty then line else paint colour (lineStyles line) line

/-- A report with its lines in their styles. -/
def paintReport (colour : Bool) (report : Text) : Text :=
  Text.joinLines ((report.splitOn '\n').map (paintLine colour))

/-- The word for a status in the styles of that status. -/
def statusLabel (colour : Bool) (s : Status) : Text :=
  let styles : List Style := match s with
    | .pass => [.green, .bold]
    | .fail => [.red, .bold]
    | .skip => [.dim]
    | .abort => [.yellow, .bold]
  paint colour styles s.capitals

/-- The line that parts sections of output. -/
def separator : Text := List.replicate 60 '\u2500'

/-- What a notice puts on the console. -/
def print (colour : Bool) : Notice → Printed
  | .write t => ⟨paintReport colour t, []⟩
  | .info t => .outLine (paint colour [.blue] ("[info] ".toList ++ t))
  | .success t => .outLine (paint colour [.green] ("[ok] ".toList ++ t))
  | .warn t => .outLine (paint colour [.yellow] ("[warn] ".toList ++ t))
  | .error t => .errLine (paint colour [.red] ("[error] ".toList ++ t))
  | .separator => .outLine (paint colour [.dim] separator)

/-- What notices put on the console, one behind the other. -/
def printAll (colour : Bool) (ns : List Notice) : Printed :=
  .concat (ns.map (print colour))

/-- Without colour a report is printed as it is. -/
theorem paintReport_off (report : Text) : paintReport false report = report := by
  have hline : paintLine false = id := by
    funext l
    simp [paintLine, paint]
  rw [paintReport, hline, List.map_id]
  exact List.intercalate_splitOn '\n'

end Console

end Runsheet
