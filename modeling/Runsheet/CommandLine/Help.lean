/-
The help text.
-/
import Runsheet.Text.Lines

namespace Runsheet

/-- What the program says about its arguments, without a break at the
end. -/
def helpText : Text := Text.joinLines <| List.map String.toList
  ["Usage: sequence-report [options]",
   "",
   "Renders the progress of one sequence test against its reference steps.",
   "",
   "  -s, --sequences <file>  Sequences document (default: $SEQUENCES_DOC)",
   "  -a, --actual <file>     Steps recorded by the run (sequence.md)",
   "  -n, --name <test>       Sequence name, the `## <name>` section to compare",
   "      --status <status>   Test outcome: pass, fail, skip or abort",
   "  -r, --results <file>    Sequencer output to read the outcome from",
   "                          when --status is omitted (default: $SEQUENCER_RESULTS)",
   "  -o, --out <file>        Write the report to a file instead of stdout",
   "      --list              List the sequences in the sequences document",
   "  -h, --help              Show this help text"]

end Runsheet
