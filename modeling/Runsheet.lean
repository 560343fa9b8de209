import Runsheet.CommandLine.Grammar
import Runsheet.Main
import Runsheet.Proofs.Case.Complete
import Runsheet.Proofs.Case.Summary
import Runsheet.Proofs.Colour
import Runsheet.Proofs.CommandLine.Composition
import Runsheet.Proofs.CommandLine.Listed
import Runsheet.Proofs.CommandLine.Spelling
import Runsheet.Proofs.CommandLine.Usage
import Runsheet.Proofs.Document.Heading
import Runsheet.Proofs.Document.Listing
import Runsheet.Proofs.Document.Record
import Runsheet.Proofs.ExitCode
import Runsheet.Proofs.LetterCase
import Runsheet.Proofs.LineBreaks
import Runsheet.Proofs.Progress.Conservation
import Runsheet.Proofs.Progress.Cut
import Runsheet.Proofs.Progress.Growth
import Runsheet.Proofs.Progress.Refinement
import Runsheet.Proofs.Report.Box
import Runsheet.Proofs.Report.Colours
import Runsheet.Proofs.Report.Numerals
import Runsheet.Proofs.Report.Outline
import Runsheet.Proofs.Report.Reading
import Runsheet.Proofs.Report.Reference
import Runsheet.Proofs.Result.Entries
import Runsheet.Proofs.Result.Grammar
import Runsheet.Proofs.Result.Points
import Runsheet.Proofs.Score.Rounding
import Runsheet.Proofs.Step.Grouping
import Runsheet.Text.LowerCase
