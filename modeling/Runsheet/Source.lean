/-
Sources. A report is made from three files: the sequences document,
the record of the run, and the result log when no status is given.
This module reads each, and says what is wrong when one does not have
what it should.

A record may be a section like those of the sequences document, or the
bare steps. It is taken for a section if it has one of the wanted
name, and for bare steps otherwise.
-/
import Runsheet.Document
import Runsheet.FileTree.Access
import Runsheet.Result.Log
import Runsheet.Step

namespace Runsheet

-- =============================================================== errors

/-- What is wrong with a source. -/
inductive DocumentError where
  | unreadable (path : Text) (cause : FileError)
  | noSection (name path : Text) (known : List Text)
  | noStatus (name : Text)
  | noResult (name log : Text)
  deriving DecidableEq, Repr

namespace DocumentError

/-- The names that could have been asked for. -/
def knownNames : List Text → Text
  | [] => " (document has no sequences)".toList
  | known => " (known: ".toList ++ ", ".toList.intercalate known ++ ")".toList

/-- What is said about the error. -/
def message : DocumentError → Text
  | .unreadable path cause =>
    "Cannot read sequence document ".toList ++ path ++ ": ".toList ++ cause.message
  | .noSection name path known =>
    "No sequence \"".toList ++ name ++ "\" in ".toList ++ path ++ knownNames known
  | .noStatus name =>
    "No status given for ".toList ++ name ++ " and no result log configured".toList
  | .noResult name log => "No result for ".toList ++ name ++ " in ".toList ++ log

end DocumentError

/-- Why a report is not made, by where the fault lies: in a source, in a
result line or a status, or with the host. -/
inductive Failure where
  | document (e : DocumentError)
  | result (e : ResultError)
  | file (e : FileError)
  deriving DecidableEq, Repr

/-- What is said about the failure. -/
def Failure.message : Failure → Text
  | .document e => e.message
  | .result e => e.message
  | .file e => e.message

namespace Source

-- ============================================================== reading

/-- The text of a document. -/
def document (t : FileTree) (path : Text) : Except DocumentError Text :=
  match t.readText path with
  | .ok doc => .ok doc
  | .error cause => .error (.unreadable path cause)

/-- The steps of a named section of a document, or of all of it. -/
def steps (t : FileTree) (path : Text) (name? : Option Text) :
    Except DocumentError (List Step) :=
  match document t path with
  | .error e => .error e
  | .ok doc =>
    match name? with
    | none => .ok (Step.readAll doc)
    | some name =>
      match Document.body? doc name with
      | some body => .ok (Step.readAll body)
      | none => .error (.noSection name path (Document.names doc))

/-- The steps that a record holds for a sequence. -/
def stepsOfRecord (doc name : Text) : List Step :=
  Step.readAll ((Document.body? doc name).getD doc)

/-- The steps of the record at a path. -/
def record (t : FileTree) (path name : Text) : Except DocumentError (List Step) :=
  match document t path with
  | .error e => .error e
  | .ok doc => .ok (stepsOfRecord doc name)

/-- The outcome that a result log tells for a sequence. -/
def outcome (t : FileTree) (log name : Text) : Except Failure Outcome :=
  match document t log with
  | .error e => .error (.document e)
  | .ok text =>
    match Result.readLog text with
    | .error e => .error (.result e)
    | .ok rs =>
      match Result.latest? rs name with
      | some r => .ok r.outcome
      | none => .error (.document (.noResult name log))

end Source

end Runsheet
