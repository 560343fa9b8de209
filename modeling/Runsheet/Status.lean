/-
Statuses. A test ends in one of four ways, each written as one word.
Where a status is read, blanks around the word and the case of its
letters do not matter.

Case is folded by the full lower-case mapping as far as it can end in
an ASCII letter: that adds the Kelvin sign, whose lower case is `k`, to
the twenty-six capitals. The one other character whose lower case
holds an ASCII letter, U+0130, becomes two characters there and so
never completes a status word; folding leaves it alone.
-/
import Runsheet.Text.Blank

namespace Runsheet

/-- How a test ended. -/
inductive Status where
  | pass
  | fail
  | skip
  | abort
  deriving DecidableEq, Repr

/-- A test's name and how it ended. -/
structure Outcome where
  status : Status
  name : Text
  deriving DecidableEq, Repr

/-- The lower case of a character, where that is one ASCII letter; any
other character is its own. -/
def foldCase (c : Char) : Char := if c = '\u212A' then 'k' else c.toLower

namespace Status

/-- Every status, in the order in which messages list them. -/
def all : List Status := [.pass, .fail, .skip, .abort]

/-- The word for a status. -/
def word : Status → Text
  | .pass => "pass".toList
  | .fail => "fail".toList
  | .skip => "skip".toList
  | .abort => "abort".toList

/-- The word in capitals. -/
def capitals (s : Status) : Text := s.word.map Char.toUpper

/-- The status that is written exactly so. -/
def ofWord? (t : Text) : Option Status := all.find? fun s => s.word = t

/-- The status that a text names, whatever its case and the blanks
around it. -/
def read? (t : Text) : Option Status := ofWord? (t.trim.map foldCase)

/-- Exactly the word of a status is read as that status. -/
theorem ofWord?_eq_some_iff {t : Text} {s : Status} :
    ofWord? t = some s ↔ t = s.word := by
  constructor
  · intro h
    rw [ofWord?] at h
    have hw := List.find?_some h
    exact (of_decide_eq_true hw).symm
  · rintro rfl
    cases s <;> decide

end Status

end Runsheet
