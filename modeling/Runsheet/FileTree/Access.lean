/-
Access to files. Reading, making directories and writing, with the
faults that each can end in. A fault is reported together with what
was being done; only when a directory is read as a file is no path
named.

Making a directory makes what is missing above it first. It stops at
the first directory that cannot be made and keeps those made before
it. A directory that exists already is no fault, except that a file in
its place is: on the way down as something that is not a directory, at
the end as something that exists.

Writing replaces a file whole or creates it, and does nothing else
(`write_eq_ok`); so what was written is read back (`readBytes_write`).
-/
import Runsheet.FileTree.Path

namespace Runsheet

/-- What was being done when a fault came up. -/
inductive Deed where
  | opening (path : Text)
  | reading
  | makingDirectory (path : Text)
  deriving DecidableEq, Repr

/-- The host's words for a deed. -/
def Deed.message : Deed → Text
  | .opening path => "open '".toList ++ path ++ ['\'']
  | .reading => "read".toList
  | .makingDirectory path => "mkdir '".toList ++ path ++ ['\'']

/-- A fault and what was being done. -/
structure FileError where
  fault : Fault
  deed : Deed
  deriving DecidableEq, Repr

/-- What is said about the error. -/
def FileError.message (e : FileError) : Text :=
  e.fault.message ++ ", ".toList ++ e.deed.message

namespace FileTree

-- ============================================================== reading

/-- The bytes of the file at a path. -/
def readBytes (t : FileTree) (path : Text) : Except FileError (List UInt8) :=
  match t.locate path with
  | .error f => .error ⟨f, .opening path⟩
  | .ok p =>
    match t.get? p with
    | none => .error ⟨.missing, .opening path⟩
    | some .dir => .error ⟨.isDirectory, .reading⟩
    | some (.file bytes) => .ok bytes

/-- The text of the file at a path. -/
def readText (t : FileTree) (path : Text) : Except FileError Text :=
  (t.readBytes path).map Utf8.decode

/-- What is at a path. -/
def stat (t : FileTree) (path : Text) : Except Fault Entry :=
  match t.locate path with
  | .error f => .error f
  | .ok p =>
    match t.get? p with
    | none => .error .missing
    | some e => .ok e

-- =================================================== making directories

/-- The tree with a new directory at a path. -/
def makeDir (t : FileTree) (path : Text) : Except Fault FileTree :=
  match t.locateTarget path with
  | .error f => .error f
  | .ok p =>
    match t.get? p with
    | some _ => .error .exists
    | none => .ok (t.set p .dir)

/-- What comes of making a directory once nothing above it is missing;
`nested` says that it is wanted on the way to another. -/
def settleDir (t : FileTree) (nested : Bool) (path : Text) :
    Except Fault FileTree → FileTree × Option FileError
  | .ok t' => (t', none)
  | .error .exists =>
    match t.stat path with
    | .ok .dir => (t, none)
    | .ok (.file _) =>
      (t, some ⟨if nested then .notDirectory else .exists, .makingDirectory path⟩)
    | .error f => (t, some ⟨if nested then .notDirectory else f, .makingDirectory path⟩)
  | .error f => (t, some ⟨f, .makingDirectory path⟩)

/-- The tree with a directory at a path, and what went wrong if anything
did. -/
def makeDirs (t : FileTree) (nested : Bool) (path : Text) :
    FileTree × Option FileError :=
  match t.makeDir path with
  | .error .missing =>
    match h : Path.beforeLastSlash? path with
    | none => (t, some ⟨.missing, .makingDirectory path⟩)
    | some above =>
      have := Path.length_lt_of_beforeLastSlash? h
      match t.makeDirs true above with
      | (t', some e) => (t', some e)
      | (t', none) => t'.settleDir nested path (t'.makeDir path)
  | r => t.settleDir nested path r
termination_by path.length

/-- Nothing above is made where nothing above is missing. -/
theorem makeDirs_of_not_missing {t : FileTree} {nested : Bool} {path : Text}
    (h : t.makeDir path ≠ .error .missing) :
    t.makeDirs nested path = t.settleDir nested path (t.makeDir path) := by
  rw [makeDirs]
  split
  · next hmissing => exact absurd hmissing h
  · rfl

/-- There is nothing above a path without a slash, so what is missing stays
so. -/
theorem makeDirs_of_top {t : FileTree} {nested : Bool} {path : Text}
    (h : t.makeDir path = .error .missing) (hs : Path.beforeLastSlash? path = none) :
    t.makeDirs nested path = (t, some ⟨.missing, .makingDirectory path⟩) := by
  rw [makeDirs, h]
  simp only
  split
  · rfl
  · next hs' => rw [hs] at hs'; cases hs'

/-- What is missing above is made first; a fault up there is the fault of the
whole. -/
theorem makeDirs_of_above {t : FileTree} {nested : Bool} {path above : Text}
    (h : t.makeDir path = .error .missing) (hs : Path.beforeLastSlash? path = some above) :
    t.makeDirs nested path = match t.makeDirs true above with
      | (t', some e) => (t', some e)
      | (t', none) => t'.settleDir nested path (t'.makeDir path) := by
  rw [makeDirs, h]
  simp only
  split
  · next hs' => rw [hs] at hs'; cases hs'
  · next hs' =>
    rw [hs] at hs'
    cases hs'
    rfl

-- ============================================================== writing

/-- The tree with a file at a path. -/
def write (t : FileTree) (path : Text) (bytes : List UInt8) :
    Except FileError FileTree :=
  if Path.endsInSlash path then
    match t.follow path (Path.target path).dropLast with
    | .error f => .error ⟨f, .opening path⟩
    | .ok p =>
      match t.get? p with
      | none => .error ⟨.missing, .opening path⟩
      | some (.file _) => .error ⟨.notDirectory, .opening path⟩
      | some .dir => .error ⟨.isDirectory, .opening path⟩
  else
    match t.locate path with
    | .error f => .error ⟨f, .opening path⟩
    | .ok p =>
      match t.get? p with
      | some .dir => .error ⟨.isDirectory, .opening path⟩
      | _ => .ok (t.set p (.file bytes))

/-- The tree with a text in a file. -/
def writeText (t : FileTree) (path text : Text) : Except FileError FileTree :=
  t.write path (Utf8.encode text)

/-- A write that succeeds sets the place that the path names, where no
directory was. -/
theorem write_eq_ok {t t' : FileTree} {path : Text} {bytes : List UInt8}
    (h : t.write path bytes = .ok t') :
    ∃ p, t.locate path = .ok p ∧ t.get? p ≠ some .dir
      ∧ t' = t.set p (.file bytes) := by
  rw [write] at h
  split at h
  · split at h
    · cases h
    · split at h <;> cases h
  · split at h
    · cases h
    · next p hp =>
      split at h
      · cases h
      · next hd => exact ⟨p, hp, hd, (Except.ok.inj h).symm⟩

/-- What was written is read back. -/
theorem readBytes_write {t t' : FileTree} {path : Text} {bytes : List UInt8}
    (h : t.write path bytes = .ok t') : t'.readBytes path = .ok bytes := by
  obtain ⟨p, hp, hd, rfl⟩ := write_eq_ok h
  have hne := ne_nil_of_get?_ne_dir hd
  have hp' : (t.set p (.file bytes)).locate path = .ok p := locate_set hd hp
  simp [readBytes, hp', get?_set hne]

/-- Text that was written is read back. -/
theorem readText_writeText {t t' : FileTree} {path text : Text}
    (h : t.writeText path text = .ok t') : t'.readText path = .ok text := by
  rw [readText, readBytes_write h]
  simp [Except.map, Utf8.decode_encode]

end FileTree

end Runsheet
