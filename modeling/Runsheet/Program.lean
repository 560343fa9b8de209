/-
The program. Arguments, environment and files go in; an exit code,
two streams of output and the files come out. What the host makes of a
start comes between: the program itself sees the session that it is
given (`runIn`), and if there is none it does not run (`runOn`).

Exit code 2 stands for arguments that cannot be used, and then the help
text follows the message; 1 for everything else that goes wrong; 0 for
a run that came to its end, however the test ended.

Arguments come before the environment: a path that an argument gives
is used, and the environment's only where there is none.
-/
import Runsheet.CommandLine.Help
import Runsheet.CommandLine.Options
import Runsheet.Console
import Runsheet.Delivery
import Runsheet.Host.Plain

namespace Runsheet.Program

-- ================================================================ endings

/-- How the program ended. -/
structure Exit where
  code : Nat
  printed : Printed
  tree : FileTree

/-- Why the program does not come to its end. -/
inductive Trouble where
  | usage (e : UsageError)
  | failure (e : Failure)
  deriving DecidableEq, Repr

/-- What is said about it. -/
def Trouble.message : Trouble → Text
  | .usage e => e.message
  | .failure e => e.message

/-- The end in trouble, behind what was printed before. -/
def fail (colour : Bool) (printed : Printed) (t : FileTree) (e : Trouble) : Exit :=
  let said := printed ++ Console.print colour (.error e.message)
  match e with
  | .usage _ => ⟨2, said ++ .errLine ('\n' :: helpText), t⟩
  | .failure _ => ⟨1, said, t⟩

-- =============================================================== requests

/-- Where the sequences document is. -/
def sequences (o : Options) (d : Defaults) : Text :=
  (o.setting? .sequences).getD d.sequences

/-- The request that options and defaults make. -/
def request (o : Options) (d : Defaults) : Except Trouble Request :=
  match o.setting? .name, o.setting? .record with
  | none, _ => .error (.usage .missingName)
  | some _, none => .error (.usage .missingRecord)
  | some name, some record =>
    let request (status : Option Status) : Request :=
      ⟨sequences o d, record, name, status, (o.setting? .results).or d.results,
        o.setting? .out⟩
    match o.setting? .status with
    | none => .ok (request none)
    | some word =>
      match Status.parse word with
      | .error e => .error (.failure (.result e))
      | .ok status => .ok (request (some status))

/-- The paths that a run with some options may look at. -/
def paths (o : Options) (d : Defaults) : List Text :=
  sequences o d :: ((o.setting? .results).or d.results).toList
    ++ [Setting.record, .out].filterMap o.setting?

-- =================================================================== runs

/-- Prints the names in a sequences document. -/
def list (colour : Bool) (path : Text) (t : FileTree) : Exit :=
  match Source.document t path with
  | .error e => fail colour .empty t (.failure (.document e))
  | .ok doc =>
    let names := Document.names doc
    let head := Console.print colour (.info
      (Nat.toDigits 10 names.length ++ " sequences in ".toList ++ path))
    ⟨0, head ++ .concat (names.map fun name => .outLine (' ' :: ' ' :: name)), t⟩

/-- Runs a request and says how the test ended. -/
def answer (colour : Bool) (q : Request) (t : FileTree) : Exit :=
  let r := q.run t
  let printed := Console.printAll colour r.notices
  match r.result with
  | .error e => fail colour printed r.tree (.failure e)
  | .ok c =>
    let label := Console.statusLabel colour c.outcome.status
    ⟨0, printed ++ Console.print colour (.info ("Outcome: ".toList ++ label)), r.tree⟩

/-- The program in a session. -/
def runIn (s : Session) (args : List Text) (t : FileTree) : Exit :=
  match Options.parse args with
  | .error e => fail s.colour .empty t (.usage e)
  | .ok o =>
    let d := Defaults.ofEnvironment s.env
    if o.help then ⟨0, .outLine helpText, t⟩
    else if o.list then list s.colour (sequences o d) t
    else
      match request o d with
      | .error e => fail s.colour .empty t e
      | .ok q => answer s.colour q t

/-- The program on a host. Where the host does not come to a session the
program does not run; what the host has said is then all there is, and
the exit code is 1. -/
def runOn (host : Host) (args : List Text) (env : Environment) (t : FileTree) : Exit :=
  let start := host args env t
  match start.session? with
  | none => ⟨1, start.printed, t⟩
  | some s =>
    let x := runIn s args t
    { x with printed := start.printed ++ x.printed }

/-- The program on the plain host. -/
def run : List Text → Environment → FileTree → Exit := runOn .plain

end Runsheet.Program
