/-
Notices. While it works the program says how far it is, warns, and
hands over the report. What it says is a list of notices in the order
given; how they look and where they go is not decided here.
-/
import Runsheet.Text.Basic

namespace Runsheet

/-- Something the program has to say, by kind. -/
inductive Notice where
  | write (text : Text)
  | info (text : Text)
  | success (text : Text)
  | warn (text : Text)
  | error (text : Text)
  | separator
  deriving DecidableEq, Repr

end Runsheet
