/-
Delivery. A loaded case is delivered once: into the file that the
request names, whose directory is made first, or on the console. Only
then does the summary follow. Whatever fails, fails before anything is
delivered.
-/
import Runsheet.Case

namespace Runsheet

/-- What a run has said, what came of it, and the files as it left
them. -/
structure Run where
  notices : List Notice
  result : Except Failure Case
  tree : FileTree

namespace Request

/-- Puts the report of a case where the request wants it. -/
def deliver (q : Request) (c : Case) (t : FileTree) :
    FileTree × Except FileError Notice :=
  match q.out.filter (! List.isEmpty ·) with
  | none => (t, .ok (.write c.report))
  | some path =>
    match t.makeDirs false (Path.parent path) with
    | (t', some e) => (t', .error e)
    | (t', none) =>
      match t'.writeText path c.report with
      | .error e => (t', .error e)
      | .ok t'' => (t'', .ok (.success ("Report written to ".toList ++ path)))

/-- Loads a request's case and delivers the report on it. -/
def run (q : Request) (t : FileTree) : Run :=
  match q.load t with
  | (said, .error e) => ⟨said, .error e, t⟩
  | (said, .ok c) =>
    match q.deliver c t with
    | (t', .error e) => ⟨said, .error (.file e), t'⟩
    | (t', .ok delivered) => ⟨said ++ [delivered, c.summary], .ok c, t'⟩

end Request

end Runsheet
