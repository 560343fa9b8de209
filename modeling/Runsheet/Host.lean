/-
The host. Two libraries come before the program. One completes the
environment from a file of assignments, the other finds out whether
output has colour. Each has rules and options of its own, and may look
at arguments, environment and files for them; each may have something to
say; and each may fail, and then there is no program to run.

None of these rules belongs here. A host is therefore whatever it makes
of a start, and the program is what it is on every host. Two things are
asked of one before anything is said of a run: that its libraries load
(`StartsIn`), and that they keep the two streams to the program
(`Quiet`). Both are what they promise unless they are told otherwise:
the one prints where it is asked to explain itself, and the other always
settles for some support of colour.
-/
import Runsheet.Console
import Runsheet.Environment
import Runsheet.FileTree.Access

namespace Runsheet

/-- What the program runs with: the environment as it was completed, and
whether output has colour. -/
structure Session where
  env : Environment
  colour : Bool
  deriving DecidableEq, Repr

/-- What a start comes to: what is said before the program has its turn,
and the session that it gets, if the libraries load. -/
structure Start where
  printed : Printed
  session? : Option Session

/-- A host: what it makes of arguments, an environment and files. -/
abbrev Host := List Text → Environment → FileTree → Start

namespace Host

/-- The libraries load, and leave the program this session. -/
def StartsIn (host : Host) (args : List Text) (env : Environment) (t : FileTree)
    (s : Session) : Prop :=
  (host args env t).session? = some s

/-- The libraries say nothing of their own. -/
def Quiet (host : Host) (args : List Text) (env : Environment) (t : FileTree) : Prop :=
  (host args env t).printed = .empty

end Host

end Runsheet
