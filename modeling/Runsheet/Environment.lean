/-
The environment. It says where the sequences document is and where the
result log is. A variable that is empty is as good as one that is not
set.
-/
import Runsheet.Text.Basic

namespace Runsheet

-- ========================================================= environments

/-- Variables and their values; of two with one name the first counts. -/
abbrev Environment := List (Text × Text)

namespace Environment

/-- The variable for the sequences document. -/
def sequencesName : Text := "SEQUENCES_DOC".toList

/-- The variable for the result log. -/
def resultsName : Text := "SEQUENCER_RESULTS".toList

/-- The value of a variable, if it has one that is not empty. -/
def filled? (env : Environment) (name : Text) : Option Text :=
  (env.lookup name).filter (! List.isEmpty ·)

end Environment

-- ============================================================= defaults

/-- Where the program looks for what the arguments do not name. -/
structure Defaults where
  sequences : Text
  results : Option Text
  deriving DecidableEq, Repr

namespace Defaults

/-- Where the sequences document is unless something else is said. -/
def defaultSequences : Text := "docs/specs/sequences/generated.md".toList

/-- The defaults that an environment makes. -/
def ofEnvironment (env : Environment) : Defaults where
  sequences := (env.filled? Environment.sequencesName).getD defaultSequences
  results := env.filled? Environment.resultsName

end Defaults

end Runsheet
