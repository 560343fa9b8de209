/-
Paths. A path is a text whose pieces are parted by slashes. It is
followed piece by piece from the root, if it opens with a slash, or
from where the tree says. Each piece is taken in a directory: a name
leads down, two points lead up, and one point or nothing at all stays.
So a slash at the end asks for a directory.

Following a path (`walk`) fails where a piece would be taken in
something missing, in a file, or where a name is too long. It says
nothing about what is at the end: there may be a directory, a file or
nothing yet.
-/
import Runsheet.FileTree.Basic
import Runsheet.Text.Utf8

namespace Runsheet

/-- Why the host refuses something. -/
inductive Fault where
  | missing
  | notDirectory
  | isDirectory
  | exists
  | nameTooLong
  deriving DecidableEq, Repr

/-- The host's words for a fault. -/
def Fault.message : Fault → Text
  | .missing => "ENOENT: no such file or directory".toList
  | .notDirectory => "ENOTDIR: not a directory".toList
  | .isDirectory => "EISDIR: illegal operation on a directory".toList
  | .exists => "EEXIST: file already exists".toList
  | .nameTooLong => "ENAMETOOLONG: name too long".toList

namespace Path

/-- The pieces of a path. -/
def pieces (path : Text) : List Text := path.splitOn '/'

/-- The pieces without the slashes at the end. -/
def target (path : Text) : List Text := dropEndWhile List.isEmpty (pieces path)

/-- Whether a path asks for a directory by a slash at its end. -/
def endsInSlash (path : Text) : Bool := path.getLast? == some '/'

/-- The path of the directory that holds what a path names, as it is
written: without the last name and one slash before it. -/
def parent (path : Text) : Text :=
  let upToSlash := dropEndWhile (· ≠ '/') (dropEndWhile (· = '/') path)
  if upToSlash.length ≤ 1 then
    if path.head? = some '/' then ['/'] else ['.']
  else if upToSlash = ['/', '/'] then upToSlash
  else upToSlash.dropLast

example : parent "out/r.txt".toList = "out".toList
    ∧ parent "out/".toList = ".".toList
    ∧ parent "r.txt".toList = ".".toList
    ∧ parent "x//y".toList = "x/".toList := by decide

/-- A path up to its last slash; nothing if there is none. -/
def beforeLastSlash? (path : Text) : Option Text :=
  match path.reverse.dropWhile (· ≠ '/') with
  | [] => none
  | _ :: rest => some rest.reverse

/-- Each step up makes a path shorter, which is why making directories ends.
-/
theorem length_lt_of_beforeLastSlash? {path q : Text}
    (h : beforeLastSlash? path = some q) : q.length < path.length := by
  rw [beforeLastSlash?] at h
  have hl := (List.dropWhile_suffix (l := path.reverse) (· ≠ '/')).length_le
  split at h
  · cases h
  · next c rest hd =>
    cases h
    rw [hd] at hl
    simp at hl ⊢
    omega

/-- The most bytes a name may have. -/
def nameLimit : Nat := 255

/-- The bytes at which a path is too long. -/
def pathLimit : Nat := 4096

/-- The place that one piece leads to. -/
def enter (p : Place) (piece : Text) : Place :=
  if piece = [] ∨ piece = ['.'] then p
  else if piece = ['.', '.'] then p.dropLast
  else p ++ [piece]

end Path

namespace FileTree

/-- The place at the end of some pieces, each taken in a directory. -/
def walk (t : FileTree) : Place → List Text → Except Fault Place
  | p, [] => .ok p
  | p, piece :: rest =>
    match t.get? p with
    | none => .error .missing
    | some (.file _) => .error .notDirectory
    | some .dir =>
      if Path.nameLimit < (Utf8.encode piece).length then .error .nameTooLong
      else walk t (Path.enter p piece) rest

/-- The place at the end of some pieces of a path. -/
def follow (t : FileTree) (path : Text) (pieces : List Text) : Except Fault Place :=
  if path = [] then .error .missing
  else if Path.pathLimit ≤ (Utf8.encode path).length then .error .nameTooLong
  else walk t (if path.head? = some '/' then [] else t.here) pieces

/-- The place that a path names. -/
def locate (t : FileTree) (path : Text) : Except Fault Place :=
  t.follow path (Path.pieces path)

/-- The place that a path names, slashes at its end left aside. -/
def locateTarget (t : FileTree) (path : Text) : Except Fault Place :=
  t.follow path (Path.target path)

/-- Every place that following a path may look at, whatever is there. -/
def visited (t : FileTree) (path : Text) : List Place :=
  let start := if path.head? = some '/' then [] else t.here
  (List.range ((Path.pieces path).length + 1)).map fun n =>
    ((Path.pieces path).take n).foldl Path.enter start

-- ====================================================== a set on the way

/-- Something new where there was no directory is on no walk's way. -/
theorem walk_set {t : FileTree} {q : Place} {e : Entry} (hq : t.get? q ≠ some .dir)
    {p p' : Place} {pieces : List Text} (h : t.walk p pieces = .ok p') :
    (t.set q e).walk p pieces = .ok p' := by
  have hne := ne_nil_of_get?_ne_dir hq
  -- over the pieces: a walk asks for directories alone, and `q` is none
  induction pieces generalizing p with
  | nil => exact h
  | cons piece rest ih =>
    rw [walk] at h ⊢
    cases hp : t.get? p with
    | none => rw [hp] at h; cases h
    | some x =>
      cases x with
      | file b => rw [hp] at h; cases h
      | dir =>
        have hpq : p ≠ q := by
          rintro rfl
          exact hq hp
        rw [hp] at h
        rw [get?_set hne, if_neg hpq, hp]
        simp only at h ⊢
        split at h
        · cases h
        · next hl => rw [if_neg hl]; exact ih h

/-- Something new where there was no directory does not change where a path
leads. -/
theorem locate_set {t : FileTree} {q p : Place} {e : Entry} {path : Text}
    (hq : t.get? q ≠ some .dir) (h : t.locate path = .ok p) :
    (t.set q e).locate path = .ok p := by
  rw [locate, follow] at h ⊢
  split at h
  · cases h
  · next h1 =>
    split at h
    · cases h
    · next h2 =>
      rw [if_neg h1, if_neg h2]
      exact walk_set hq h

end FileTree

end Runsheet
