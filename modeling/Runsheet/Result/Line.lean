/-
Result lines. A sequencer writes one line per finished test:

    RESULT status bucket name stage score/total message

Fields are parted by gaps of blanks; the message, which may be missing,
is the rest of the line and may hold blanks, but no line break of any
kind. Blanks around the line do not count.

A line is taken for a result line when it starts with the word and one
space. From there on nothing is skipped quietly: such a line either
has all its fields and a known status, or it is an error. The fields
are looked at before the status is.
-/
import Runsheet.Score
import Runsheet.Status
import Runsheet.Text.Span

namespace Runsheet

/-- What is wrong with a result line or with a status. -/
inductive ResultError where
  | malformed (line : Text)
  | unknownStatus (word : Text)
  deriving DecidableEq, Repr

namespace ResultError

/-- The text at fault: the whole line, blanks included, or the word. -/
def culprit : ResultError → Text
  | .malformed line => line
  | .unknownStatus word => word

/-- What is said about the error. -/
def message : ResultError → Text
  | .malformed line => "Malformed result line: ".toList ++ line.trim
  | .unknownStatus word =>
    "Unknown test status \"".toList ++ word ++ "\" (expected one of ".toList
      ++ ", ".toList.intercalate (Status.all.map Status.word) ++ ")".toList

end ResultError

/-- The status that a text names; an error if it names none. -/
def Status.parse (t : Text) : Except ResultError Status :=
  match Status.read? t with
  | some s => .ok s
  | none => .error (.unknownStatus t)

/-- Reading a status adds nothing but the error. -/
theorem Status.parse_eq_ok_iff {t : Text} {s : Status} :
    parse t = .ok s ↔ read? t = some s := by
  rw [parse]
  cases read? t <;> simp

/-- What is no status is named in the error. -/
theorem Status.parse_eq_error {t : Text} (h : ∀ s, parse t ≠ .ok s) :
    parse t = .error (.unknownStatus t) := by
  rw [parse]
  cases hr : read? t with
  | none => rfl
  | some s => exact absurd (parse_eq_ok_iff.2 hr) (h s)

/-- What a result line reports. -/
structure Result where
  status : Status
  bucket : Text
  name : Text
  stage : Text
  score : Score
  total : Score
  message : Text
  deriving DecidableEq, Repr

namespace Result

-- =============================================================== fields

/-- The fields of a result line, as they are written. -/
structure Fields where
  status : Text
  bucket : Text
  name : Text
  stage : Text
  score : Text
  total : Text
  message : Text
  deriving DecidableEq, Repr

/-- The characters that no message holds. -/
def breaksMessage (c : Char) : Bool :=
  c = '\n' || c = '\r' || c = '\u2028' || c = '\u2029'

/-- The message behind the last numeral: nothing at all, or what stands
behind a gap. -/
def message? : Text → Option Text
  | [] => some []
  | rest => (Text.afterGap? rest).filter (! List.any · breaksMessage)

/-- A score, a slash and a total, and what stands behind them. -/
def points? (t : Text) : Option (Text × Text × Text) :=
  match Text.span? Char.isDigit t with
  | some (score, '/' :: rest) =>
    (Text.span? Char.isDigit rest).map fun (total, rest) => (score, total, rest)
  | _ => none

/-- The word that opens a result line. -/
def keyword : Text := "RESULT".toList

/-- The fields of a line without blanks around it. -/
def Fields.read? (line : Text) : Option Fields := do
  let rest ← keyword.isPrefixOf? line
  let (status, rest) ← Text.nextWord? rest
  let (bucket, rest) ← Text.nextWord? rest
  let (name, rest) ← Text.nextWord? rest
  let (stage, rest) ← Text.nextWord? rest
  let rest ← Text.afterGap? rest
  let (score, total, rest) ← points? rest
  let message ← message? rest
  return ⟨status, bucket, name, stage, score, total, message⟩

-- ================================================================ lines

/-- Whether a line without blanks around it is taken for a result line. -/
def isMarked (line : Text) : Bool := (keyword ++ [' ']).isPrefixOf line

/-- The result that fields report. -/
def ofFields (f : Fields) : Except ResultError Result :=
  (Status.parse f.status).map fun s =>
    ⟨s, f.bucket, f.name, f.stage, .ofDigits f.score, .ofDigits f.total, f.message⟩

/-- The result on a line; nothing if the line is no result line. -/
def ofLine (line : Text) : Except ResultError (Option Result) :=
  if isMarked line.trim then
    match Fields.read? line.trim with
    | some f => (ofFields f).map some
    | none => .error (.malformed line)
  else .ok none

/-- The outcome that a result reports. -/
def outcome (r : Result) : Outcome := ⟨r.status, r.name⟩

end Result

end Runsheet
