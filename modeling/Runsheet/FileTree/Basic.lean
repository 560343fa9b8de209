/-
File trees. A tree of directories and files, together with the
directory that relative paths start from. The program's view of its
files is one such value; what it does to them is the difference
between two.

A place is the list of names that leads to it from the root. The
entries are kept as a history, latest first: setting a place adds a
pair in front, and looking one up takes the first that fits. Through
`get?` a tree is a partial function on places, and `get?_set` is all
there is to know about setting one. The root is always a directory.
-/
import Runsheet.Text.Basic

namespace Runsheet

/-- Where something is: the names from the root. -/
abbrev Place := List Text

/-- What a place can hold. -/
inductive Entry where
  | dir
  | file (bytes : List UInt8)
  deriving DecidableEq, Repr

/-- Directories and files, and the place that relative paths start
from. -/
structure FileTree where
  here : Place
  history : List (Place × Entry)
  deriving DecidableEq, Repr

namespace FileTree

/-- What is at a place. -/
def get? (t : FileTree) (p : Place) : Option Entry :=
  if p = [] then some .dir else t.history.lookup p

/-- The tree with an entry at a place. -/
def set (t : FileTree) (p : Place) (e : Entry) : FileTree :=
  { t with history := (p, e) :: t.history }

@[simp] theorem here_set (t : FileTree) (p : Place) (e : Entry) :
    (t.set p e).here = t.here := rfl

@[simp] theorem get?_nil (t : FileTree) : t.get? [] = some .dir := by
  simp [get?]

/-- Where there is no directory, there is not the root. -/
theorem ne_nil_of_get?_ne_dir {t : FileTree} {p : Place} (h : t.get? p ≠ some .dir) :
    p ≠ [] := by
  intro hp
  rw [hp] at h
  exact h t.get?_nil

theorem ne_nil_of_get?_eq_none {t : FileTree} {p : Place} (h : t.get? p = none) : p ≠ [] :=
  ne_nil_of_get?_ne_dir (by rw [h]; exact nofun)

theorem ne_nil_of_get?_eq_file {t : FileTree} {p : Place} {bytes : List UInt8}
    (h : t.get? p = some (.file bytes)) : p ≠ [] :=
  ne_nil_of_get?_ne_dir (by rw [h]; exact nofun)

/-- Setting a place changes what is there and nothing else. -/
theorem get?_set {t : FileTree} {p : Place} (hp : p ≠ []) (e : Entry) (q : Place) :
    (t.set p e).get? q = if q = p then some e else t.get? q := by
  by_cases hq : q = p
  · subst hq
    simp [get?, set, hp]
  · rw [if_neg hq]
    by_cases hn : q = []
    · simp [get?, hn]
    · have hb : (q == p) = false := beq_eq_false_iff_ne.2 hq
      simp [get?, set, hn, List.lookup_cons, hb]

-- ========================================================== differences

/-- Every place that was ever set, earliest first. -/
def places (t : FileTree) : List Place := (t.history.map Prod.fst).reverse.eraseDups

/-- What is new or different in a tree, earliest first. -/
def changesSince (after before : FileTree) : List (Place × Entry) :=
  after.places.filterMap fun p =>
    if after.get? p = before.get? p then none
    else (after.get? p).map fun e => (p, e)

/-- The path from one place to another under it. -/
def relative? (base p : Place) : Option Text :=
  (base.isPrefixOf? p).map fun names => ['/'].intercalate names

end FileTree

end Runsheet
