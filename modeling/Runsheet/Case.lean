/-
Cases. A request says where the sources are and which sequence is
meant; a case is what they hold: the reference, the record and the
outcome. Loading goes from one to the other, in that order, and stops
at the first source that fails. What it has to say on the way is kept
even then.

A status given in the request decides the outcome, and then the result
log is not looked at. A path that is empty names nothing.
-/
import Runsheet.Notice
import Runsheet.Report.Basic
import Runsheet.Source

namespace Runsheet

/-- What is asked for. -/
structure Request where
  sequences : Text
  record : Text
  name : Text
  status : Option Status
  results : Option Text
  out : Option Text
  deriving DecidableEq, Repr

/-- What the sources of a request hold. -/
structure Case where
  reference : List Step
  record : List Step
  outcome : Outcome
  deriving DecidableEq, Repr

namespace Case

/-- The reference by what became of it. -/
def partition (c : Case) : Partition Step := .ofRun c.reference c.record c.outcome.status

/-- The report on a case. -/
def report (c : Case) : Text := Runsheet.report c.reference c.record c.outcome.status

/-- The summary of a case: a warning if a step failed, a success if
not. -/
def summary (c : Case) : Notice :=
  let text := c.outcome.summary c.partition
  if c.partition.failed.isEmpty then .success text else .warn text

end Case

namespace Request

/-- A count and what is counted. -/
def countOf (n : Nat) (noun : Text) : Text :=
  Nat.toDigits 10 n ++ ' ' :: noun ++ if n = 1 then [] else ['s']

/-- What is said about the reference. -/
def referenceNotices (name : Text) (reference : List Step) : List Notice :=
  .info ("Loaded ".toList ++ countOf reference.length "reference step".toList
      ++ " for ".toList ++ name) ::
    if reference.isEmpty then
      [.warn ("Sequence ".toList ++ name ++ " has no numbered steps".toList)]
    else []

/-- What is said about the record. -/
def recordNotices (reference record : List Step) : List Notice :=
  .info ("Run recorded ".toList ++ countOf record.length "step".toList) ::
    if reference.length < record.length then
      let extra := record.length - reference.length
      [.warn ("Run recorded ".toList ++ countOf extra "step".toList
        ++ " beyond the reference; ignoring ".toList
        ++ if extra = 1 then "it".toList else "them".toList)]
    else []

/-- The outcome that a request gives or its result log tells. -/
def outcome (q : Request) (t : FileTree) : Except Failure Outcome :=
  match q.status with
  | some s => .ok ⟨s, q.name⟩
  | none =>
    match q.results.filter (! List.isEmpty ·) with
    | none => .error (.document (.noStatus q.name))
    | some log => Source.outcome t log q.name

/-- What loading has to say, and the case or why there is none. -/
def load (q : Request) (t : FileTree) : List Notice × Except Failure Case :=
  match Source.steps t q.sequences (some q.name) with
  | .error e => ([], .error (.document e))
  | .ok reference =>
    let loaded := referenceNotices q.name reference
    match Source.record t q.record q.name with
    | .error e => (loaded, .error (.document e))
    | .ok record =>
      let loaded := loaded ++ recordNotices reference record
      match q.outcome t with
      | .error e => (loaded, .error e)
      | .ok o => (loaded, .ok ⟨reference, record, o⟩)

end Request

end Runsheet
